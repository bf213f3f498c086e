/-
  Foundation/Text.lean --- texts in fixed-width fields.

  A text of up to a given width is kept in a field of that width, filled up with
  blanks or with NULs.  `Text` is a text that can be recovered from such a field:
  it holds no NUL and does not end in a blank.  The three ways of trimming a field
  that are in use all give back the text, whatever the filling.
-/
import IbmmqExporter.Foundation.Bytes
import Mathlib.Data.List.DropRight

set_option autoImplicit false

namespace IbmmqExporter.Foundation

/-- The terminator of a C string. -/
abbrev nul : UInt8 := 0

/-- The blank. -/
abbrev blank : UInt8 := 32

/-- The bytes of an ASCII text. -/
def ascii (s : String) : Bytes := s.toList.map fun c => UInt8.ofNat c.toNat

/-- A number in decimal digits (`std::to_string`). -/
def decimal (v : Int32) : Bytes := ascii (toString v.toInt)

/-- The text of a number is not empty. -/
theorem decimal_ne_nil (v : Int32) : decimal v ≠ [] := by
  intro hnil
  have hempty : toString v.toInt = "" := String.toList_eq_nil_iff.mp (List.map_eq_nil_iff.mp hnil)
  rw [Int.toString_eq_repr] at hempty
  revert hempty
  cases v.toInt with
  | ofNat n => exact Nat.repr_ne_empty
  | negSucc n => simp [Int.repr]

/-- Cut a string off at its first NUL. -/
def untilNul (s : Bytes) : Bytes := s.takeWhile fun b => b ≠ nul

/-- Remove the blanks at the end of a string. -/
def trimBlanks (s : Bytes) : Bytes := s.rdropWhile fun b => b = blank

/-- Remove the blanks and NULs at the end of a string. -/
def trimPadding (s : Bytes) : Bytes := s.rdropWhile fun b => b = nul ∨ b = blank

/-- What a field is filled up with: blanks and NULs in any mixture. -/
def IsPadding (pad : Bytes) : Prop := ∀ b ∈ pad, b = nul ∨ b = blank

instance (pad : Bytes) : Decidable (IsPadding pad) :=
  List.decidableBAll (fun b => b = nul ∨ b = blank) pad

instance (bytes : Bytes) : Decidable (∀ b ∈ bytes, b ≠ nul) :=
  List.decidableBAll (fun b => b ≠ nul) bytes

/-- A text that a filled field can carry: no NUL in it and no blank at its end. -/
structure Text where
  bytes : Bytes
  noNul : ∀ b ∈ bytes, b ≠ nul
  noTrailingBlank : bytes.getLast? ≠ some blank

/-- Dropping from the right loses a stretch at the end of which all is dropped. -/
theorem rdropWhile_append_of_all {p : UInt8 → Bool} {s pad : Bytes}
    (h : ∀ b ∈ pad, p b = true) : (s ++ pad).rdropWhile p = s.rdropWhile p := by
  unfold List.rdropWhile
  rw [List.reverse_append, List.dropWhile_append_of_pos (by simpa using h)]

/-- The string does not end in a blank or in a NUL. -/
def EndsClean (s : Bytes) : Prop := ∀ b ∈ s.getLast?, ¬ (b = nul ∨ b = blank)

instance (s : Bytes) : Decidable (EndsClean s) :=
  match h : s.getLast? with
  | none => .isTrue fun b hb => by rw [h] at hb; cases hb
  | some b =>
      if hb : b = nul ∨ b = blank then .isFalse fun hclean => hclean b h hb
      else .isTrue fun c hc => by rw [h] at hc; cases hc; exact hb

/-- Trimming blanks and NULs gives back a string that does not end in one. -/
theorem EndsClean.trimPadding_append {s pad : Bytes} (h : EndsClean s) (hpad : IsPadding pad) :
    trimPadding (s ++ pad) = s := by
  rw [trimPadding, rdropWhile_append_of_all (by simpa [IsPadding] using hpad),
    List.rdropWhile_eq_self_iff]
  intro hne hlast
  exact h _ (List.getLast?_eq_some_getLast hne) (of_decide_eq_true hlast)

namespace Text

@[simp] theorem trimBlanks_eq (t : Text) : trimBlanks t.bytes = t.bytes := by
  rw [trimBlanks, List.rdropWhile_eq_self_iff]
  intro hne hlast
  apply t.noTrailingBlank
  rw [List.getLast?_eq_some_getLast hne]
  simpa using hlast

theorem endsClean (t : Text) : EndsClean t.bytes := by
  rintro b hb (rfl | rfl)
  · exact t.noNul _ (List.mem_of_getLast? hb) rfl
  · exact t.noTrailingBlank hb

/-- Trimming blanks and NULs gives back the text. -/
theorem trimPadding_append (t : Text) {pad : Bytes} (hpad : IsPadding pad) :
    trimPadding (t.bytes ++ pad) = t.bytes := t.endsClean.trimPadding_append hpad

theorem trimPadding_eq (t : Text) : trimPadding t.bytes = t.bytes := by
  have h := t.trimPadding_append (show IsPadding [] by simp [IsPadding])
  simpa using h

/-- Cutting at the first NUL and then trimming blanks gives back the text. -/
theorem trimBlanks_untilNul_append (t : Text) {pad : Bytes} (hpad : IsPadding pad) :
    trimBlanks (untilNul (t.bytes ++ pad)) = t.bytes := by
  have hcut : untilNul (t.bytes ++ pad) = t.bytes ++ untilNul pad := by
    unfold untilNul
    exact List.takeWhile_append_of_pos (by simpa using t.noNul)
  have hblank : ∀ b ∈ untilNul pad, decide (b = blank) = true := by
    intro b hb
    have hne : b ≠ nul := by simpa using List.mem_takeWhile_imp hb
    have hmem : b ∈ pad := (List.takeWhile_sublist _).subset hb
    simpa [hne] using hpad b hmem
  rw [hcut, trimBlanks, rdropWhile_append_of_all hblank]
  exact t.trimBlanks_eq

theorem trimBlanks_untilNul (t : Text) : trimBlanks (untilNul t.bytes) = t.bytes := by
  have h := t.trimBlanks_untilNul_append (show IsPadding [] by simp [IsPadding])
  simpa using h

end Text

end IbmmqExporter.Foundation
