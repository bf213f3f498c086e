/-
  Metrics/Exclusion.lean --- the language of `queue_exclusion_patterns`.

  `discover_queues` hands a pattern to the queue manager, which reads an asterisk at the
  end as any rest of a name.  `matches_hlq_pattern` compares high-level qualifiers.

  WHAT THE FILE PROVES.  Behind a qualifier and a dot, and alone, an asterisk stands for
  any rest of a name in exclusion patterns too.  Behind anything else it is a character
  like others: the pattern excludes the name that is written like it, and no other.
-/
import IbmmqExporter.Metrics.Selection

set_option autoImplicit false

namespace IbmmqExporter.Metrics

open Foundation

/-- `*` -/
def star : UInt8 := 42

/-- The text consists of a qualifier and a dot. -/
def Qualifies (p : Bytes) : Prop := ∃ qualifier, qualifier ≠ [] ∧ p = qualifier ++ ascii "."

variable {p q : Bytes}

theorem drop_ne_of_not_mem (h : star ∉ p) {suffix : Bytes} (hsuffix : star ∈ suffix) (n : Nat) :
    p.drop n ≠ suffix := by
  rintro rfl
  exact h (List.mem_of_mem_drop hsuffix)

/-- A pattern without an asterisk is a name. -/
theorem matchesHlqPattern_name (h : star ∉ p) : matchesHlqPattern q p = true ↔ q = p := by
  have hall : p ≠ ascii "*" := by
    rintro rfl
    exact h (by decide)
  unfold matchesHlqPattern
  rw [if_neg hall, if_neg fun hdot => drop_ne_of_not_mem h (by decide) _ hdot.2,
    if_neg fun hdots => drop_ne_of_not_mem h (by decide) _ hdots.2, beq_iff_eq]

theorem hasQualifier_iff (qualifier : Bytes) :
    hasQualifier q qualifier = true ↔ qualifier ++ ascii "." <+: q := by
  unfold hasQualifier
  rw [Bool.and_eq_true, decide_eq_true_iff, beq_iff_eq, List.prefix_iff_eq_take]
  have hlen : (qualifier ++ ascii ".").length = qualifier.length + 1 := by
    rw [List.length_append]
    rfl
  rw [hlen]
  constructor
  · rintro ⟨-, htake⟩
    exact htake.symm
  · intro htake
    refine ⟨?_, htake.symm⟩
    have := congrArg List.length htake
    rw [hlen, List.length_take] at this
    omega

/-- Behind a qualifier and a dot the asterisk stands for any rest. -/
theorem matchesHlqPattern_qualified (h : Qualifies p) :
    matchesHlqPattern q (p ++ ascii "*") = true ↔ p <+: q := by
  obtain ⟨qualifier, hne, rfl⟩ := h
  have hpattern : qualifier ++ ascii "." ++ ascii "*" = qualifier ++ ascii ".*" := by
    rw [List.append_assoc]
    rfl
  have hpos : 0 < qualifier.length := List.length_pos_of_ne_nil hne
  have hlen : (qualifier ++ ascii ".*").length = qualifier.length + 2 := by
    rw [List.length_append]
    rfl
  have hall : qualifier ++ ascii ".*" ≠ ascii "*" := by
    intro heq
    have := congrArg List.length heq
    rw [hlen] at this
    exact absurd this (by simp [ascii])
  rw [hpattern]
  unfold matchesHlqPattern
  rw [if_neg hall, hlen, Nat.add_sub_cancel, List.drop_left, List.take_left,
    if_pos ⟨by omega, rfl⟩, hasQualifier_iff]

/-- The pattern in front of its asterisk. -/
theorem eq_of_drop_pattern {n : Nat} {u : Bytes}
    (h : (p ++ ascii "*").drop n = u ++ ascii "*") : p = (p ++ ascii "*").take n ++ u := by
  have hsplit := List.take_append_drop n (p ++ ascii "*")
  rw [h, ← List.append_assoc] at hsplit
  exact (List.append_cancel_right hsplit).symm

/-- Behind anything else the asterisk stands for itself. -/
theorem matchesHlqPattern_unqualified (h : star ∉ p) (hne : p ≠ []) (hunq : ¬ Qualifies p) :
    matchesHlqPattern q (p ++ ascii "*") = true ↔ q = p ++ ascii "*" := by
  have hall : p ++ ascii "*" ≠ ascii "*" := fun heq =>
    hne (List.append_cancel_right (heq.trans (List.nil_append _).symm))
  unfold matchesHlqPattern
  rw [if_neg hall, if_neg, if_neg, beq_iff_eq]
  · rintro ⟨-, hdots⟩
    have hp := eq_of_drop_pattern (u := ascii ".*") hdots
    refine h ?_
    rw [hp]
    exact List.mem_append_right _ (by decide)
  · rintro ⟨hlen, hdot⟩
    have hp := eq_of_drop_pattern (u := ascii ".") hdot
    refine hunq ⟨_, ?_, hp⟩
    have hpos : 0 < (p ++ ascii "*").length - 2 := by omega
    intro hnil
    have := congrArg List.length hnil
    rw [List.length_take, List.length_nil] at this
    omega

/-- Exclusion patterns, with and without an asterisk at the end. -/
theorem queueMatchesExclusion_iff (h : star ∉ p) (q : Bytes) :
    (p = [] ∨ Qualifies p → (queueMatchesExclusion q [p ++ ascii "*"] = true ↔ p <+: q)) ∧
      (¬ (p = [] ∨ Qualifies p) →
        (queueMatchesExclusion q [p ++ ascii "*"] = true ↔ q = p ++ ascii "*")) ∧
      (queueMatchesExclusion q [p] = true ↔ q = p) := by
  have hone (pattern : Bytes) :
      queueMatchesExclusion q [pattern] = matchesHlqPattern q pattern := by
    simp [queueMatchesExclusion]
  rw [hone, hone]
  refine ⟨?_, ?_, matchesHlqPattern_name h⟩
  · rintro (rfl | hqual)
    · exact iff_of_true rfl List.nil_prefix
    · exact matchesHlqPattern_qualified hqual
  · intro hnot
    rw [not_or] at hnot
    exact matchesHlqPattern_unqualified h hnot.1 hnot.2

theorem queueMatchesExclusion_iff_app :
    (queueMatchesExclusion (ascii "APP1") [ascii "APP1" ++ ascii "*"] = true ↔
        ascii "APP1" = ascii "APP1" ++ ascii "*") ∧
      (queueMatchesExclusion (ascii "APP1.IN") [ascii "APP1." ++ ascii "*"] = true ↔
        ascii "APP1." <+: ascii "APP1.IN") := by
  have hunq : ¬ (ascii "APP1" = [] ∨ Qualifies (ascii "APP1")) := by
    rintro (hnil | ⟨qualifier, -, heq⟩)
    · cases hnil
    · have hlast := congrArg List.getLast? heq
      rw [List.getLast?_append_of_ne_nil _ (by decide)] at hlast
      exact absurd hlast (by decide)
  exact ⟨(queueMatchesExclusion_iff (by decide) _).2.1 hunq,
    (queueMatchesExclusion_iff (p := ascii "APP1.") (by decide) _).1
      (.inr ⟨ascii "APP1", by decide, by decide⟩)⟩

/-- A prefix without a dot is not read as one. -/
theorem not_queueMatchesExclusion_prefix :
    ¬ ∀ p q : Bytes, star ∉ p →
      (queueMatchesExclusion q [p ++ ascii "*"] = true ↔ p <+: q) := by
  intro h
  have happ := h (ascii "APP") (ascii "APP1") (by decide)
  exact absurd (happ.mpr (by decide)) (by decide)

end IbmmqExporter.Metrics
