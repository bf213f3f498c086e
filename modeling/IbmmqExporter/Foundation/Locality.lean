/-
  Foundation/Locality.lean --- the same record in two buffers.

  WHAT THE FILE PROVIDES.  A read inside a record gives the same wherever the record
  stands (`SameBytes`).  If the walk over a buffer ends at its end, the walk over the
  buffer with other bytes behind it goes on with these bytes (`Framing.offsets_append`,
  `Framing.stop_append`).
-/
import IbmmqExporter.Foundation.Framing

set_option autoImplicit false

namespace IbmmqExporter.Foundation

/-- The `n` bytes at `off` in `data` are the `n` bytes at `off'` in `data'`. -/
structure SameBytes (n : Nat) (data : Bytes) (off : Nat) (data' : Bytes) (off' : Nat) : Prop where
  fits : off + n ≤ data.length
  fits' : off' + n ≤ data'.length
  bytes : (data.drop off).take n = (data'.drop off').take n

namespace SameBytes

variable {ε : Type} {n k : Nat} {data data' : Bytes} {off off' : Nat}

/-- Bytes of a buffer with others behind it. -/
theorem append_left {a : Bytes} (b : Bytes) (h : off + n ≤ a.length) :
    SameBytes n a off (a ++ b) off where
  fits := h
  fits' := by
    rw [List.length_append]
    omega
  bytes := by
    rw [List.drop_append_of_le_length (by omega), List.take_append_of_le_length]
    rw [List.length_drop]
    omega

/-- Bytes of a buffer with others in front of it. -/
theorem append_right (a : Bytes) {b : Bytes} (h : off + n ≤ b.length) :
    SameBytes n b off (a ++ b) (a.length + off) where
  fits := h
  fits' := by
    rw [List.length_append]
    omega
  bytes := by rw [List.drop_length_add_append]

theorem mono {m : Nat} (h : SameBytes n data off data' off') (hm : m ≤ n) :
    SameBytes m data off data' off' where
  fits := Nat.le_trans (Nat.add_le_add_left hm off) h.fits
  fits' := Nat.le_trans (Nat.add_le_add_left hm off') h.fits'
  bytes := by
    have hpart (d : Bytes) (o : Nat) : (d.drop o).take m = ((d.drop o).take n).take m := by
      rw [List.take_take, Nat.min_eq_left hm]
    rw [hpart, hpart, h.bytes]

variable (h : SameBytes n data off data' off')
include h

theorem take_drop_eq {m : Nat} (hk : k + m ≤ n) :
    (data.drop (off + k)).take m = (data'.drop (off' + k)).take m := by
  have hpart (d : Bytes) (o : Nat) : (d.drop (o + k)).take m = (((d.drop o).take n).drop k).take m := by
    rw [List.drop_take, List.drop_drop, List.take_take, Nat.min_eq_left (by omega)]
  rw [hpart, hpart, h.bytes]

theorem slice_eq {m : Nat} (hk : k + m ≤ n) :
    (slice data (off + k) m : Outcome ε Bytes) = slice data' (off' + k) m := by
  have hfits := h.fits
  have hfits' := h.fits'
  rw [slice_eq_ok (by omega), slice_eq_ok (by omega), h.take_drop_eq hk]

theorem uint32At_eq (hk : k + 4 ≤ n) : uint32At data (off + k) = uint32At data' (off' + k) := by
  rw [uint32At, uint32At, h.take_drop_eq hk]

theorem int32At_eq (hk : k + 4 ≤ n) : int32At data (off + k) = int32At data' (off' + k) := by
  rw [int32At, int32At, h.uint32At_eq hk]

theorem intAt_eq (hk : k + 4 ≤ n) : intAt data (off + k) = intAt data' (off' + k) := by
  rw [intAt, intAt, h.int32At_eq hk]

theorem readInt32_eq (hk : k + 4 ≤ n) :
    (readInt32 data (off + k) : Outcome ε Int32) = readInt32 data' (off' + k) := by
  rw [readInt32, readUInt32, h.slice_eq hk]
  rfl

theorem readInt_eq (hk : k + 4 ≤ n) :
    (readInt data (off + k) : Outcome ε Int) = readInt data' (off' + k) := by
  rw [readInt, h.readInt32_eq hk]
  rfl

theorem readInt64_eq (hk : k + 8 ≤ n) :
    (readInt64 data (off + k) : Outcome ε Int64) = readInt64 data' (off' + k) := by
  rw [readInt64, h.slice_eq hk]
  rfl

end SameBytes

namespace Framing

variable {F : Framing}

/-- The length that a record states does not depend on what follows it. -/
def Local (F : Framing) : Prop :=
  ∀ rest post n, F.next rest = some n → F.next (rest ++ post) = some n

/-- Behind other bytes the walk visits the same places, shifted. -/
theorem offsets_append_right (F : Framing) (a b : Bytes) (off : Nat) :
    F.offsets (a ++ b) (a.length + off) = (F.offsets b off).map (a.length + ·) := by
  induction off using F.walk_induction b with
  | done off h =>
      rw [offsets_of_none h, offsets_of_none (by rwa [List.drop_length_add_append])]
      rfl
  | step off n h ih =>
      have h' : F.next ((a ++ b).drop (a.length + off)) = some n := by
        rwa [List.drop_length_add_append]
      rw [offsets_of_some h, offsets_of_some h', Nat.add_assoc, ih]
      rfl

theorem stop_append_right (F : Framing) (a b : Bytes) (off : Nat) :
    F.stop (a ++ b) (a.length + off) = a.length + F.stop b off := by
  induction off using F.walk_induction b with
  | done off h =>
      rw [stop_of_none h, stop_of_none (by rwa [List.drop_length_add_append])]
  | step off n h ih =>
      have h' : F.next ((a ++ b).drop (a.length + off)) = some n := by
        rwa [List.drop_length_add_append]
      rw [stop_of_some h, stop_of_some h', Nat.add_assoc, ih]

/-- A walk that ends at the end of a buffer goes on with what is put behind it. -/
theorem offsets_append (hlocal : F.Local) {a : Bytes} (b : Bytes) {off : Nat}
    (hoff : off ≤ a.length) (hstop : F.stop a off = a.length) :
    F.offsets (a ++ b) off = F.offsets a off ++ (F.offsets b 0).map (a.length + ·) := by
  induction off using F.walk_induction a with
  | done off h =>
      rw [stop_of_none h] at hstop
      subst hstop
      rw [offsets_of_none h]
      exact F.offsets_append_right a b 0
  | step off n h ih =>
      have hbounds := next_bounds h
      have h' : F.next ((a ++ b).drop off) = some n := by
        rw [List.drop_append_of_le_length hoff]
        exact hlocal _ b n h
      rw [stop_of_some h] at hstop
      rw [offsets_of_some h, offsets_of_some h', ih hbounds.2.1 hstop]
      rfl

end Framing

end IbmmqExporter.Foundation
