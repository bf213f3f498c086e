/-
  Foundation/Extent.lean --- strings that are read out of records.

  A record may state more characters than it has room for.  What is read then goes on
  behind the record, and what is left of it once its end is trimmed may not.

  WHAT THE FILE PROVIDES.  The trimmed string consists of bytes of its record if and
  only if what was read behind the record is all trimmed off (`Reading.inside_iff`).
-/
import IbmmqExporter.Foundation.Text

set_option autoImplicit false

namespace IbmmqExporter.Foundation

/-- A string that is read out of the record between `start` and `stop`: the `len` bytes
from `pos` on. -/
structure Reading where
  start : Nat
  stop : Nat
  pos : Nat
  len : Nat
  start_le : start ≤ pos

namespace Reading

/-- The string of `len` bytes behind a header of `k` bytes. -/
def behind (start stop k len : Nat) : Reading where
  start := start
  stop := stop
  pos := start + k
  len := len
  start_le := Nat.le_add_right start k

variable (r : Reading) (data : Bytes)

/-- The bytes that are read. -/
def raw : Bytes := (data.drop r.pos).take r.len

/-- All that is read behind the record is trimmed off. -/
def Fits (trims : UInt8 → Bool) : Prop := ∀ b ∈ (r.raw data).drop (r.stop - r.pos), trims b = true

instance (trims : UInt8 → Bool) : Decidable (r.Fits data trims) :=
  List.decidableBAll (fun b => trims b = true) _

/-- The string consists of bytes that stand between the two ends of the record: its
`i`-th byte is that at `pos + i`, and lies inside. -/
def Inside (s : Bytes) : Prop :=
  ∀ i (h : i < s.length), data[r.pos + i]? = some (s.get ⟨i, h⟩) ∧
    r.start ≤ r.pos + i ∧ r.pos + i < r.stop

end Reading

/-- What is trimmed has at most `m` bytes if and only if all the others are trimmed off. -/
theorem length_rdropWhile_le_iff {p : UInt8 → Bool} {s : Bytes} {m : Nat} :
    (s.rdropWhile p).length ≤ m ↔ ∀ b ∈ s.drop m, p b = true := by
  constructor
  · intro hle b hb
    have hsplit : s.rdropWhile p ++ s.rtakeWhile p = s := List.rdropWhile_append_rtakeWhile
    rw [← hsplit, List.drop_append, List.drop_eq_nil_of_le hle, List.nil_append] at hb
    exact List.mem_rtakeWhile_imp (List.mem_of_mem_drop hb)
  · intro hall
    rw [← List.take_append_drop m s, rdropWhile_append_of_all hall]
    have hprefix := (List.rdropWhile_prefix p (s.take m)).length_le
    exact Nat.le_trans hprefix (List.length_take_le m s)

/-- What is left of the bytes that were read lies inside the record if and only if all
that is behind the record is trimmed off. -/
theorem Reading.inside_iff (r : Reading) (data : Bytes) (trims : UInt8 → Bool) :
    r.Inside data ((r.raw data).rdropWhile trims) ↔ r.Fits data trims := by
  unfold Reading.Fits
  rw [← length_rdropWhile_le_iff]
  have hprefix : (r.raw data).rdropWhile trims <+: data.drop r.pos :=
    (List.rdropWhile_prefix trims _).trans (List.take_prefix _ _)
  generalize (r.raw data).rdropWhile trims = s at hprefix
  constructor
  · intro h
    by_contra hlong
    obtain ⟨-, -, hlt⟩ := h (r.stop - r.pos) (by omega)
    obtain ⟨-, -, hfirst⟩ := h 0 (by omega)
    omega
  · intro h i hi
    have hstart := r.start_le
    refine ⟨?_, by omega, by omega⟩
    rw [← List.getElem?_drop, List.get_eq_getElem]
    exact List.prefix_iff_getElem?.mp hprefix i hi

end IbmmqExporter.Foundation
