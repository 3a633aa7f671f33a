import SansIo.Collections.BitVec
import SansIo.Lib.Machine

/-!
# What a `BitVec` remembers

`src/collections/bit_vec.rs`, under any sequence of its operations.  Below the length a read
is exact (`BitVec.exact_below_len`), whatever the bits beyond it are.

These bits are not cleared: neither when the length shrinks below them, nor when it grows
over them again.  And `set_all` sets all that there are bytes for.  So what an index reads
that the length grows over is the last thing that was written there, possibly long before
(`BitVec.flag_iff`).
-/

namespace SansIo.Collections

open SansIo.Lib

/-- The operations of a `BitVec`. -/
inductive BitOp where
  | setLen (len : Nat)
  | setBit (i : Nat) (value : Bool)
  | setAll (value : Bool)

namespace BitOp

/-- The operation writes `true` to a bit. -/
def Sets (i : Nat) (b : BitVec) : BitOp → Prop
  | .setLen _ => False
  | .setBit j value => j = i ∧ value = true
  | .setAll value => value = true ∧ i < b.bytes.length * 8

/-- The operation writes `false` to a bit. -/
def Clears (i : Nat) : BitOp → Prop
  | .setLen _ => False
  | .setBit j value => j = i ∧ value = false
  | .setAll value => value = false

end BitOp

namespace BitVec

/-- One operation.  One that panics is not possible. -/
def step (b : BitVec) : BitOp → Option (BitVec × List Empty)
  | .setLen len => some (b.setLen len, [])
  | .setBit i value => match b.setBit i value with
    | .ok b' => some (b', [])
    | .error _ => none
  | .setAll value => some (b.setAll value, [])

/-- A `BitVec`, under its operations. -/
def machine : Machine BitVec BitOp Empty := ⟨step⟩

/-! ## Below the length -/

/-- What the operations do below the length. -/
structure Exact (b : BitVec) : Prop where
  /-- There is a byte for every index, -/
  covered : ∀ i < b.len, i / 8 < b.bytes.length
  /-- so that a read does not panic, -/
  getBit : ∀ i < b.len, ∃ value, b.getBit i = .ok value
  /-- and a write neither.  It changes one bit. -/
  setBit : ∀ i < b.len, ∀ value, ∃ b', b.setBit i value = .ok b' ∧ b'.len = b.len ∧
    ∀ j < b.len, b'.getBit j = if j = i then .ok value else b.getBit j
  /-- The first index that is set is the least one below the length, -/
  first_some : ∀ i, b.firstSetIndex = some i ↔
    i < b.len ∧ b.getBit i = .ok true ∧ ∀ j < i, b.getBit j = .ok false
  /-- and there is none when there is none. -/
  first_none : b.firstSetIndex = none ↔ ∀ i < b.len, b.getBit i = .ok false

theorem firstSetIndex_eq_none (b : BitVec) :
    b.firstSetIndex = none ↔ ∀ i < b.len, b.getBit i = .ok false := by
  have hfirst := b.firstSetIndex_isFirst
  constructor
  · intro hnone i hi
    rw [hnone] at hfirst
    rw [b.getBit_of_lt hi, hfirst i (Nat.zero_le i) hi]
  · intro hall
    cases hsome : b.firstSetIndex with
    | none => rfl
    | some i =>
        rw [hsome] at hfirst
        obtain ⟨-, hi, hset, -⟩ := hfirst
        have hclear := hall i hi
        rw [b.getBit_of_lt hi, hset] at hclear
        cases hclear

theorem firstSetIndex_eq_some (b : BitVec) (i : Nat) :
    b.firstSetIndex = some i ↔
      i < b.len ∧ b.getBit i = .ok true ∧ ∀ j < i, b.getBit j = .ok false := by
  have hfirst := b.firstSetIndex_isFirst
  constructor
  · intro hsome
    rw [hsome] at hfirst
    obtain ⟨-, hi, hset, hbelow⟩ := hfirst
    refine ⟨hi, by rw [b.getBit_of_lt hi, hset], fun j hj ↦ ?_⟩
    rw [b.getBit_of_lt (Nat.lt_trans hj hi), hbelow j (Nat.zero_le j) hj]
  · rintro ⟨hi, hset, hbelow⟩
    rw [b.getBit_of_lt hi] at hset
    have hflag : b.flag i = true := Except.ok.inj hset
    cases hsome : b.firstSetIndex with
    | none =>
        rw [hsome] at hfirst
        have hclear := hfirst i (Nat.zero_le i) hi
        rw [hflag] at hclear
        cases hclear
    | some j =>
        rw [hsome] at hfirst
        obtain ⟨-, hj, hset', hbelow'⟩ := hfirst
        rcases Nat.lt_trichotomy i j with hij | rfl | hji
        · have hclear := hbelow' i (Nat.zero_le i) hij
          rw [hflag] at hclear
          cases hclear
        · rfl
        · have hclear := hbelow j hji
          rw [b.getBit_of_lt hj, hset'] at hclear
          cases hclear

/-- **Below the length the operations are exact**, whatever history the bits have: that
the bytes cover the length is a field. -/
theorem exact_below_len (b : BitVec) : b.Exact where
  covered i hi := by
    have := b.enough
    omega
  getBit i hi := ⟨_, b.getBit_of_lt hi⟩
  setBit i hi value := by
    obtain ⟨b', hb', hlen, hflag⟩ := b.setBit_of_lt hi value
    refine ⟨b', hb', hlen, fun j hj ↦ ?_⟩
    rw [b'.getBit_of_lt (hlen ▸ hj), b.getBit_of_lt hj, hflag j]
    split <;> rfl
  first_some := b.firstSetIndex_eq_some
  first_none := b.firstSetIndex_eq_none

/-! ## Beyond the length -/

/-- `set_all` writes to all the bits that there are bytes for. -/
theorem flag_setAll_iff (b : BitVec) (value : Bool) (i : Nat) :
    (b.setAll value).flag i = true ↔ value = true ∧ i < b.bytes.length * 8 := by
  unfold flag flagOf setAll
  rw [List.getElem?_map]
  by_cases hi : i / 8 < b.bytes.length
  · have hlt : i < b.bytes.length * 8 := by omega
    rw [List.getElem?_eq_getElem hi, Option.map_some, and_iff_left hlt]
    cases value with
    | true => exact iff_of_true (hasBit_ones (Nat.mod_lt _ (by decide))) rfl
    | false => exact iff_of_false (by simp [hasBit_zero]) (by simp)
  · have hle : ¬ i < b.bytes.length * 8 := by omega
    rw [List.getElem?_eq_none (Nat.not_lt.1 hi)]
    exact iff_of_false (by simp) fun h ↦ hle h.2

theorem flag_lt {b : BitVec} {i : Nat} (h : b.flag i = true) : i < b.bytes.length * 8 := by
  by_contra hi
  have hnone : b.bytes[i / 8]? = none := List.getElem?_eq_none (by omega)
  simp only [flag, flagOf, hnone] at h
  cases h

/-- **What one operation does to a bit**, below the length or beyond it. -/
theorem flag_step {b b' : BitVec} {op : BitOp} {events : List Empty}
    (h : b.step op = some (b', events)) (i : Nat) :
    b'.flag i = true ↔ op.Sets i b ∨ (¬ op.Clears i ∧ b.flag i = true) := by
  cases op with
  | setLen len =>
      cases h
      simp [BitOp.Sets, BitOp.Clears]
  | setBit j value =>
      simp only [step] at h
      cases hset : b.setBit j value with
      | error e =>
          rw [hset] at h
          cases h
      | ok b'' =>
          rw [hset] at h
          cases h
          obtain ⟨b₁, hb₁, -, hflag⟩ := b.setBit_of_lt (setBit_ok_lt hset) value
          cases hb₁.symm.trans hset
          rw [hflag]
          by_cases hij : i = j
          · cases value <;> simp [BitOp.Sets, BitOp.Clears, hij]
          · simp [BitOp.Sets, BitOp.Clears, hij, Ne.symm hij]
  | setAll value =>
      cases h
      rw [flag_setAll_iff]
      cases value with
      | true =>
          simp only [BitOp.Sets, BitOp.Clears, true_and, Bool.true_eq_false, not_false_iff]
          exact ⟨.inl, fun h ↦ h.elim id flag_lt⟩
      | false => simp [BitOp.Sets, BitOp.Clears]

/-- The last thing that was written to a bit was `true`. -/
def LeftSet (i : Nat) (h : History BitVec BitOp Empty) : Prop :=
  Since (fun m ↦ ¬ m.label.Clears i) (fun m ↦ m.label.Sets i m.pre) h

/-- **A bit is what was last written to it**, and at first it is clear. -/
theorem flag_iff {len : Nat} {h : History BitVec BitOp Empty} {b : BitVec}
    (hr : machine.Run (news len) h b) (i : Nat) : b.flag i = true ↔ LeftSet i h :=
  hr.since_iff (P := fun b ↦ b.flag i = true) (by simp) fun _ hm ↦ flag_step hm i

end BitVec

end SansIo.Collections
