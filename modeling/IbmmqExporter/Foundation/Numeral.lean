/-
  Foundation/Numeral.lean --- numbers in decimal digits.

  A numeral is a string of digits that is not empty; zeros may stand in front.

  WHAT THE FILE PROVIDES.  The bytes of a numeral are digits whose values are those of the
  numeral (`Numeral.foldl_text`).
-/
import IbmmqExporter.Foundation.Bytes

set_option autoImplicit false

namespace IbmmqExporter.Foundation

/-- A string of decimal digits. -/
structure Numeral where
  digits : List (Fin 10)
  ne_nil : digits ≠ []

namespace Numeral

/-- The number that the digits denote. -/
def value (x : Numeral) : Nat := x.digits.foldl (fun (n : Nat) (d : Fin 10) => 10 * n + d.val) 0

/-- A digit in ASCII. -/
def digitByte (d : Fin 10) : UInt8 := UInt8.ofNat (48 + d)

/-- The bytes of the numeral. -/
def text (x : Numeral) : Bytes := x.digits.map digitByte

theorem toNat_digitByte (d : Fin 10) : (digitByte d).toNat = 48 + d.val := by
  revert d
  decide

theorem text_ne_nil (x : Numeral) : x.text ≠ [] := by
  unfold text
  rw [ne_eq, List.map_eq_nil_iff]
  exact x.ne_nil

/-- Every byte is that of a digit. -/
theorem exists_of_mem_text {x : Numeral} {c : UInt8} (hc : c ∈ x.text) :
    ∃ d, c = digitByte d := by
  obtain ⟨d, -, rfl⟩ := List.mem_map.mp hc
  exact ⟨d, rfl⟩

/-- Evaluating the bytes gives the value of the numeral. -/
theorem foldl_text (x : Numeral) :
    x.text.foldl (fun (n : Int) c => 10 * n + (c.toNat - 48 : Int)) 0 = x.value := by
  have hfold (ds : List (Fin 10)) (n : Nat) :
      (ds.map digitByte).foldl (fun (n : Int) c => 10 * n + (c.toNat - 48 : Int)) n =
        ds.foldl (fun (n : Nat) (d : Fin 10) => 10 * n + d.val) n := by
    induction ds generalizing n with
    | nil => rfl
    | cons d ds ih =>
        rw [List.map_cons, List.foldl_cons, List.foldl_cons, ← ih, toNat_digitByte]
        congr 1
        push_cast
        ring
  exact hfold x.digits 0

end Numeral

end IbmmqExporter.Foundation
