/-
  Foundation/Bytes.lean --- byte strings, bounds-checked reads and little-endian
  words.

  A pointer with a length is the list of the bytes it may be followed to.  Every
  read goes through `slice`, which is undefined as soon as one byte of it lies
  outside that list, so that "reads only inside" is the absence of one outcome.

  Words are read with `leNat`, the little-endian number of a byte string, and
  written with `leBytes`.  The two are inverse up to the width, which gives the
  round trips of the fixed-width signed and unsigned words below.
-/
import IbmmqExporter.Foundation.Outcome
import Mathlib.Data.List.Basic
import Mathlib.Tactic.Ring

set_option autoImplicit false

namespace IbmmqExporter.Foundation

/-- A byte string: the contents of a buffer, or of a string of characters. -/
abbrev Bytes : Type := List UInt8

/-! ## Little-endian numbers -/

/-- The number whose little-endian bytes are given. -/
def leNat : Bytes → Nat
  | [] => 0
  | b :: bs => b.toNat + 256 * leNat bs

/-- The `width` little-endian bytes of a number. -/
def leBytes : Nat → Nat → Bytes
  | 0, _ => []
  | width + 1, n => UInt8.ofNat n :: leBytes width (n / 256)

@[simp] theorem length_leBytes (width n : Nat) : (leBytes width n).length = width := by
  induction width generalizing n with
  | zero => rfl
  | succ width ih => simp [leBytes, ih]

/-- Reading back what was written loses only what the width cannot hold. -/
theorem leNat_leBytes (width n : Nat) : leNat (leBytes width n) = n % 256 ^ width := by
  induction width generalizing n with
  | zero => simp [leBytes, leNat, Nat.mod_one]
  | succ width ih =>
      have hpow : 256 ^ (width + 1) = 256 * 256 ^ width := by ring
      simp only [leBytes, leNat, ih, UInt8.toNat_ofNat', hpow]
      exact Nat.mod_mul.symm

/-! ## Checked reads -/

section Reads

variable {ε : Type}

/-- The `n` bytes at offset `off`. -/
def slice (data : Bytes) (off n : Nat) : Outcome ε Bytes :=
  if off + n ≤ data.length then .ok ((data.drop off).take n) else .undefined

theorem slice_eq_ok {data : Bytes} {off n : Nat} (h : off + n ≤ data.length) :
    (slice data off n : Outcome ε Bytes) = .ok ((data.drop off).take n) :=
  if_pos h

/-- An unsigned 32-bit word, little-endian. -/
def readUInt32 (data : Bytes) (off : Nat) : Outcome ε UInt32 := do
  let b ← slice data off 4
  return UInt32.ofNat (leNat b)

/-- A signed 32-bit word, little-endian. -/
def readInt32 (data : Bytes) (off : Nat) : Outcome ε Int32 := do
  let w ← readUInt32 data off
  return w.toInt32

/-- A signed 32-bit word that is used as a number: a length or a count. -/
def readInt (data : Bytes) (off : Nat) : Outcome ε Int := do
  let w ← readInt32 data off
  return w.toInt

/-- A signed 64-bit word, little-endian. -/
def readInt64 (data : Bytes) (off : Nat) : Outcome ε Int64 := do
  let b ← slice data off 8
  return (UInt64.ofNat (leNat b)).toInt64

/-! The value at an offset, for a word known to be there. -/

/-- The unsigned 32-bit word at `off`. -/
def uint32At (data : Bytes) (off : Nat) : UInt32 :=
  UInt32.ofNat (leNat ((data.drop off).take 4))

/-- The signed 32-bit word at `off`. -/
def int32At (data : Bytes) (off : Nat) : Int32 := (uint32At data off).toInt32

/-- The signed 32-bit word at `off`, as a number. -/
def intAt (data : Bytes) (off : Nat) : Int := (int32At data off).toInt

/-- The signed 64-bit word at `off`. -/
def int64At (data : Bytes) (off : Nat) : Int64 :=
  (UInt64.ofNat (leNat ((data.drop off).take 8))).toInt64

/-- A word read as signed and as unsigned: the same below `2^31`, and negative from there
on. -/
theorem intAt_uint32At (data : Bytes) (off : Nat) :
    ((uint32At data off).toNat < 2 ^ 31 ∧ intAt data off = (uint32At data off).toNat) ∨
      (2 ^ 31 ≤ (uint32At data off).toNat ∧ intAt data off < 0) := by
  have hint : intAt data off = (uint32At data off).toBitVec.toInt := rfl
  have hnat : (uint32At data off).toBitVec.toNat = (uint32At data off).toNat := rfl
  have hlt := (uint32At data off).toNat_lt
  rw [hint, BitVec.toInt_eq_toNat_cond, hnat]
  split
  · exact .inl ⟨by omega, rfl⟩
  · exact .inr ⟨by omega, by omega⟩

theorem readUInt32_eq {data : Bytes} {off : Nat} (h : off + 4 ≤ data.length) :
    (readUInt32 data off : Outcome ε UInt32) = .ok (uint32At data off) := by
  simp [readUInt32, slice_eq_ok h, uint32At]

theorem readInt32_eq {data : Bytes} {off : Nat} (h : off + 4 ≤ data.length) :
    (readInt32 data off : Outcome ε Int32) = .ok (int32At data off) := by
  simp [readInt32, readUInt32_eq h, int32At]

theorem readInt_eq {data : Bytes} {off : Nat} (h : off + 4 ≤ data.length) :
    (readInt data off : Outcome ε Int) = .ok (intAt data off) := by
  simp [readInt, readInt32_eq h, intAt]

theorem readInt64_eq {data : Bytes} {off : Nat} (h : off + 8 ≤ data.length) :
    (readInt64 data off : Outcome ε Int64) = .ok (int64At data off) := by
  simp [readInt64, slice_eq_ok h, int64At]

theorem uint32At_drop (data : Bytes) (off k : Nat) :
    uint32At (data.drop off) k = uint32At data (off + k) := by
  simp [uint32At, List.drop_drop]

theorem int32At_drop (data : Bytes) (off k : Nat) :
    int32At (data.drop off) k = int32At data (off + k) := by
  rw [int32At, uint32At_drop, int32At]

theorem intAt_drop (data : Bytes) (off k : Nat) :
    intAt (data.drop off) k = intAt data (off + k) := by
  rw [intAt, int32At_drop, intAt]

theorem int64At_drop (data : Bytes) (off k : Nat) :
    int64At (data.drop off) k = int64At data (off + k) := by
  simp [int64At, List.drop_drop]

theorem readUInt32_undefined {data : Bytes} {off : Nat} (h : data.length < off + 4) :
    (readUInt32 data off : Outcome ε UInt32) = .undefined := by
  have : ¬ off + 4 ≤ data.length := by omega
  simp [readUInt32, slice, this]

end Reads

/-! ## Encoded words -/

/-- The four little-endian bytes of an unsigned word. -/
def encodeUInt32 (v : UInt32) : Bytes := leBytes 4 v.toNat

/-- The four little-endian bytes of a signed word. -/
def encodeInt32 (v : Int32) : Bytes := encodeUInt32 v.toUInt32

/-- The eight little-endian bytes of a signed word. -/
def encodeInt64 (v : Int64) : Bytes := leBytes 8 v.toUInt64.toNat

@[simp] theorem length_encodeUInt32 (v : UInt32) : (encodeUInt32 v).length = 4 := by
  simp [encodeUInt32]

@[simp] theorem length_encodeInt32 (v : Int32) : (encodeInt32 v).length = 4 := by
  simp [encodeInt32]

@[simp] theorem length_encodeInt64 (v : Int64) : (encodeInt64 v).length = 8 := by
  simp [encodeInt64]

theorem uint32At_encode (v : UInt32) (post : Bytes) :
    uint32At (encodeUInt32 v ++ post) 0 = v := by
  have htake : (encodeUInt32 v ++ post).take 4 = encodeUInt32 v := by
    rw [← length_encodeUInt32 v, List.take_left]
  have hv : v.toNat % 256 ^ 4 = v.toNat := Nat.mod_eq_of_lt v.toNat_lt
  rw [uint32At, List.drop_zero, htake, encodeUInt32, leNat_leBytes, hv, UInt32.ofNat_toNat]

theorem int64At_encode (v : Int64) (post : Bytes) :
    int64At (encodeInt64 v ++ post) 0 = v := by
  have htake : (encodeInt64 v ++ post).take 8 = encodeInt64 v := by
    rw [← length_encodeInt64 v, List.take_left]
  have hv : v.toUInt64.toNat % 256 ^ 8 = v.toUInt64.toNat :=
    Nat.mod_eq_of_lt v.toUInt64.toNat_lt
  rw [int64At, List.drop_zero, htake, encodeInt64, leNat_leBytes, hv, UInt64.ofNat_toNat]
  rfl

/-! ## Reading a buffer from the front

`data.drop off = x ++ post` says that the bytes `x` stand at offset `off`.  The
rules below read `x` and hand on the same statement about what follows it. -/

section Peel

variable {ε : Type} {data post : Bytes} {off : Nat}

theorem drop_peel {x : Bytes} (h : data.drop off = x ++ post) :
    data.drop (off + x.length) = post := by
  rw [← List.drop_drop, h, List.drop_left]

theorem le_length_peel {x : Bytes} (h : data.drop off = x ++ post) (hx : 0 < x.length) :
    off + x.length ≤ data.length := by
  have hlen := congrArg List.length h
  simp only [List.length_drop, List.length_append] at hlen
  omega

theorem slice_peel {x : Bytes} (h : data.drop off = x ++ post) (hx : 0 < x.length) :
    (slice data off x.length : Outcome ε Bytes) = .ok x := by
  rw [slice_eq_ok (le_length_peel h hx), h, List.take_left]

theorem uint32At_peel {v : UInt32} (h : data.drop off = encodeUInt32 v ++ post) :
    uint32At data off = v := by
  rw [← Nat.add_zero off, ← uint32At_drop, h, uint32At_encode]

theorem int32At_peel {v : Int32} (h : data.drop off = encodeInt32 v ++ post) :
    int32At data off = v := by
  rw [int32At, uint32At_peel h]
  rfl

theorem readInt32_peel {v : Int32} (h : data.drop off = encodeInt32 v ++ post) :
    (readInt32 data off : Outcome ε Int32) = .ok v := by
  have hle := le_length_peel h (by simp)
  rw [length_encodeInt32] at hle
  rw [readInt32_eq hle, int32At_peel h]

theorem intAt_peel {v : Int32} (h : data.drop off = encodeInt32 v ++ post) :
    intAt data off = v.toInt := by
  rw [intAt, int32At_peel h]

theorem readInt_peel {v : Int32} (h : data.drop off = encodeInt32 v ++ post) :
    (readInt data off : Outcome ε Int) = .ok v.toInt := by
  have hle := le_length_peel h (by simp)
  rw [length_encodeInt32] at hle
  rw [readInt_eq hle, intAt_peel h]

theorem readInt64_peel {v : Int64} (h : data.drop off = encodeInt64 v ++ post) :
    (readInt64 data off : Outcome ε Int64) = .ok v := by
  have hle := le_length_peel h (by simp)
  rw [length_encodeInt64] at hle
  rw [readInt64_eq hle, ← Nat.add_zero off, ← int64At_drop, h, int64At_encode]

theorem drop_peel_int32 {v : Int32} (h : data.drop off = encodeInt32 v ++ post) :
    data.drop (off + 4) = post := by
  rw [← drop_peel h, length_encodeInt32]

theorem drop_peel_int64 {v : Int64} (h : data.drop off = encodeInt64 v ++ post) :
    data.drop (off + 8) = post := by
  rw [← drop_peel h, length_encodeInt64]

end Peel

end IbmmqExporter.Foundation
