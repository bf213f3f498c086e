/-
  Foundation/Size.lean --- sizes of 64 bits.

  A `size_t` is an unsigned word whose sums and differences wrap.  The bytes of a
  vector are fewer than half of the sizes, so that an offset inside of a vector and a
  length of 32 bits have a sum that does not wrap; the lemmas below are the two ways in
  which bounds tests use this.
-/
import IbmmqExporter.Foundation.Bytes

set_option autoImplicit false

namespace IbmmqExporter.Foundation

/-- A `size_t`. -/
abbrev Size : Type := UInt64

/-- `static_cast<size_t>` of a signed word: the sign is extended. -/
def toSize (n : Int32) : Size := n.toInt64.toUInt64

/-- `size()`. -/
def size (data : Bytes) : Size := .ofNat data.length

/-- A vector can hold the bytes. -/
def Addressable (data : Bytes) : Prop := data.length < 2 ^ 63

/-- A byte vector. -/
structure ByteVector where
  bytes : Bytes
  addressable : Addressable bytes

theorem Addressable.drop {data : Bytes} (h : Addressable data) (n : Nat) :
    Addressable (data.drop n) := by
  unfold Addressable at h ⊢
  rw [List.length_drop]
  omega

theorem toNat_size {data : Bytes} (h : Addressable data) : (size data).toNat = data.length := by
  unfold Addressable at h
  exact UInt64.toNat_ofNat_of_lt' (by unfold UInt64.size; omega)

/-- A length that is not negative keeps its value. -/
theorem toNat_toSize {n : Int32} (h : 0 ≤ n.toInt) : (toSize n).toNat = n.toInt.toNat := by
  have h64 : (0 : Int64) ≤ n.toInt64 := by
    rw [Int64.le_iff_toInt_le, Int32.toInt_toInt64]
    exact h
  rw [toSize, Int64.toNat_toUInt64_of_le h64, Int64.toNatClampNeg, Int32.toInt_toInt64]

theorem toNat_toSize_lt {n : Int32} (h : 0 ≤ n.toInt) : (toSize n).toNat < 2 ^ 32 := by
  have := n.toInt_lt
  rw [toNat_toSize h]
  omega

/-- A sum of sizes that fits does not wrap. -/
theorem Size.toNat_add {a b : Size} (h : a.toNat + b.toNat < 2 ^ 64) :
    (a + b).toNat = a.toNat + b.toNat := by
  rw [UInt64.toNat_add, Nat.mod_eq_of_lt h]

/-- A difference of sizes does not wrap where the first is not the smaller one. -/
theorem Size.toNat_sub {a b : Size} (h : b ≤ a) : (a - b).toNat = a.toNat - b.toNat :=
  UInt64.toNat_sub_of_le a b h

/-- A pointer moved forward, which may not pass the end of the bytes. -/
def advance {ε : Type} (data : Bytes) (n : Nat) : Outcome ε Bytes :=
  if n ≤ data.length then .ok (data.drop n) else .undefined

theorem advance_eq_ok {ε : Type} {data : Bytes} {n : Nat} (h : n ≤ data.length) :
    (advance data n : Outcome ε Bytes) = .ok (data.drop n) :=
  if_pos h

/-! ## Bounds tests

A span of memory is its bytes together with the size that is handed on for it. -/

section Bounds

variable {data : Bytes} {len offset n : Size}

/-- An offset inside of the span and a length of 32 bits, added as sizes and as numbers. -/
theorem toNat_offset_add (hdata : Addressable data) (hoffset : offset.toNat ≤ data.length)
    (hn : n.toNat < 2 ^ 33) : (offset + n).toNat = offset.toNat + n.toNat := by
  unfold Addressable at hdata
  exact Size.toNat_add (by omega)

/-- The test whether the `n` bytes at an offset lie inside of the span. -/
theorem offset_add_le_iff (hdata : Addressable data) (hlen : len.toNat = data.length)
    (hoffset : offset.toNat ≤ data.length) (hn : n.toNat < 2 ^ 33) :
    offset + n ≤ len ↔ offset.toNat + n.toNat ≤ data.length := by
  rw [UInt64.le_iff_toNat_le, toNat_offset_add hdata hoffset hn, hlen]

theorem lt_offset_add_iff (hdata : Addressable data) (hlen : len.toNat = data.length)
    (hoffset : offset.toNat ≤ data.length) (hn : n.toNat < 2 ^ 33) :
    len < offset + n ↔ data.length < offset.toNat + n.toNat := by
  rw [UInt64.lt_iff_toNat_lt, toNat_offset_add hdata hoffset hn, hlen]

end Bounds

end IbmmqExporter.Foundation
