/-
  Monitor/MetricNames.lean --- the names that `description_to_metric_name` makes.

  The loop appends to the name as it goes, with a flag for the separator that it has
  written last, and a separator at the end is trimmed off behind it.

  WHAT THE FILE PROVES.  The name is the row of the words of the description: what is
  neither alphanumeric nor a separator is left out, the rest cut at the separators, and
  the words put into lower case and joined by underscores.
-/
import IbmmqExporter.Foundation.Words
import IbmmqExporter.Monitor.ResourceMonitor

set_option autoImplicit false

namespace IbmmqExporter.Monitor

open Foundation

/-! ## The name of a description -/

/-- `_` -/
def underscore : UInt8 := 95

/-- The characters that are not left out. -/
def keptChars (desc : Bytes) : Bytes := desc.filter fun c => isAlnum c || isSeparator c

/-- The words of a description, in lower case. -/
def metricWords (desc : Bytes) : List Bytes :=
  (wordsOf isSeparator (keptChars desc)).map fun w => w.map toLower

/-- The name that a description stands for. -/
def metricNameOf (desc : Bytes) : Bytes := [underscore].intercalate (metricWords desc)

/-- `std::tolower` of an alphanumeric is a lower case letter or a digit. -/
theorem toLower_range {c : UInt8} (h : isAlnum c = true) :
    (48 ≤ toLower c ∧ toLower c ≤ 57) ∨ (97 ≤ toLower c ∧ toLower c ≤ 122) := by
  simp only [isAlnum, decide_eq_true_eq, UInt8.le_iff_toNat_le, UInt8.reduceToNat] at h
  unfold toLower
  split
  · next hupper =>
      simp only [UInt8.le_iff_toNat_le, UInt8.toNat_add, UInt8.reduceToNat] at hupper ⊢
      omega
  · next hupper =>
      simp only [UInt8.le_iff_toNat_le, UInt8.reduceToNat] at hupper ⊢
      omega

theorem isSeparator_of_isAlnum {c : UInt8} (h : isAlnum c = true) : isSeparator c = false := by
  by_contra hsep
  have hmem : c ∈ ascii " -/()" := by simpa [isSeparator] using hsep
  have hnone : ∀ b ∈ ascii " -/()", isAlnum b = false := by decide +kernel
  rw [hnone c hmem] at h
  cases h

theorem isAlnum_of_kept {desc : Bytes} {c : UInt8} (h : c ∈ keptChars desc)
    (hsep : isSeparator c = false) : isAlnum c = true := by
  simpa [keptChars, hsep] using (List.mem_filter.mp h).2

theorem mem_metricWords {desc w : Bytes} (hw : w ∈ metricWords desc) :
    w ≠ [] ∧ ∀ b ∈ w, (48 ≤ b ∧ b ≤ 57) ∨ (97 ≤ b ∧ b ≤ 122) := by
  obtain ⟨v, hv, rfl⟩ := List.mem_map.mp hw
  obtain ⟨hne, hall⟩ := mem_wordsOf hv
  refine ⟨by simpa using hne, fun b hb => ?_⟩
  obtain ⟨c, hc, rfl⟩ := List.mem_map.mp hb
  exact toLower_range (isAlnum_of_kept (hall c hc).2 (hall c hc).1)

theorem areWords_metricWords (desc : Bytes) : AreWords underscore (metricWords desc) := by
  intro w hw
  obtain ⟨hne, hall⟩ := mem_metricWords hw
  exact ⟨hne, fun hmem => absurd (hall _ hmem) (by decide)⟩

/-! ## The loop -/

/-- The description ends in a separator, but for what is left out. -/
def Parted (desc : Bytes) : Prop := ∀ b ∈ (keptChars desc).getLast?, isSeparator b = true

/-- What the loop has when it has read `desc`. -/
structure Written (desc result : Bytes) (prevUnderscore : Bool) : Prop where
  prev : prevUnderscore = true ↔ metricWords desc ≠ [] ∧ Parted desc
  result : result = metricNameOf desc ++ if prevUnderscore then [underscore] else []

theorem keptChars_concat {c : UInt8} (hc : isAlnum c = true ∨ isSeparator c = true)
    (desc : Bytes) : keptChars (desc ++ [c]) = keptChars desc ++ [c] := by
  unfold keptChars
  rw [List.filter_append, List.filter_cons_of_pos (by simpa using hc)]
  rfl

theorem keptChars_concat_dropped {c : UInt8} (hc : isAlnum c = false) (hsep : isSeparator c = false)
    (desc : Bytes) : keptChars (desc ++ [c]) = keptChars desc := by
  unfold keptChars
  rw [List.filter_append, List.filter_cons_of_neg (by simp [hc, hsep])]
  exact List.append_nil _

namespace Written

variable {desc result : Bytes} {prev : Bool} {c : UInt8}

theorem result_eq_nil_iff (h : Written desc result prev) :
    result = [] ↔ metricWords desc = [] := by
  rw [h.result, List.append_eq_nil_iff]
  constructor
  · rintro ⟨hname, -⟩
    exact (areWords_metricWords desc).eq_nil_iff.mp hname
  · intro hwords
    have hprev : prev ≠ true := fun hprev => (h.prev.mp hprev).1 hwords
    exact ⟨(areWords_metricWords desc).eq_nil_iff.mpr hwords, if_neg hprev⟩

/-- A separator leaves the words as they are. -/
theorem words_sep (desc : Bytes) (hc : isSeparator c = true) :
    metricWords (desc ++ [c]) = metricWords desc ∧ Parted (desc ++ [c]) := by
  unfold metricWords Parted
  rw [keptChars_concat (.inr hc), wordsOf_concat_sep hc]
  simpa using hc

theorem sep_first (h : Written desc result prev) (hc : isSeparator c = true)
    (hne : result ≠ []) (hprev : prev = false) :
    Written (desc ++ [c]) (result ++ [underscore]) true := by
  obtain ⟨hwords, hparted⟩ := words_sep desc hc
  have hsome : metricWords desc ≠ [] := fun hnil => hne (h.result_eq_nil_iff.mpr hnil)
  refine ⟨?_, ?_⟩
  · rw [hwords]
    exact iff_of_true rfl ⟨hsome, hparted⟩
  · unfold metricNameOf
    rw [hwords, h.result, hprev]
    simp [metricNameOf]

theorem sep_again (h : Written desc result prev) (hc : isSeparator c = true)
    (hagain : result = [] ∨ prev = true) : Written (desc ++ [c]) result prev := by
  obtain ⟨hwords, hparted⟩ := words_sep desc hc
  refine ⟨?_, ?_⟩
  · rw [hwords]
    rcases hagain with hnil | hprev
    · have hnone := h.result_eq_nil_iff.mp hnil
      have hno : ¬ prev = true := fun hprev => (h.prev.mp hprev).1 hnone
      exact iff_of_false hno fun hsome => hsome.1 hnone
    · exact iff_of_true hprev ⟨(h.prev.mp hprev).1, hparted⟩
  · unfold metricNameOf
    rw [hwords]
    exact h.result

/-- A letter or a digit begins a word, or goes on with one. -/
theorem alnum (h : Written desc result prev) (hsep : isSeparator c = false)
    (hc : isAlnum c = true) : Written (desc ++ [c]) (result ++ [toLower c]) false := by
  have hkept := keptChars_concat (.inl hc) desc
  refine ⟨?_, ?_⟩
  · have hinside : ¬ Parted (desc ++ [c]) := by
      unfold Parted
      rw [hkept]
      simpa using hsep
    exact iff_of_false Bool.false_ne_true fun hparted => hinside hparted.2
  · rw [h.result, if_neg Bool.false_ne_true, List.append_nil]
    unfold metricNameOf
    by_cases hparted : Parted desc
    · have hwords : metricWords (desc ++ [c]) = metricWords desc ++ [[toLower c]] := by
        unfold metricWords
        rw [hkept, wordsOf_concat_first hparted hsep, List.map_append]
        rfl
      rw [hwords]
      by_cases hnone : metricWords desc = []
      · have hprev : ¬ prev = true := fun hprev => (h.prev.mp hprev).1 hnone
        rw [hnone, if_neg hprev]
        simp
      · have hprev : prev = true := h.prev.mpr ⟨hnone, hparted⟩
        rw [intercalate_concat hnone, if_pos hprev]
        simp
    · have hprev : ¬ prev = true := fun hprev => hparted (h.prev.mp hprev).2
      unfold Parted at hparted
      push Not at hparted
      obtain ⟨b, hlast, hb⟩ := hparted
      obtain ⟨ws, w, hw, hwc⟩ := wordsOf_concat_next hlast (by simpa using hb) hsep
      unfold metricWords
      rw [hkept, hw, hwc, if_neg hprev]
      simp only [List.map_append, List.map_cons, List.map_nil, List.append_nil]
      exact (intercalate_concat_append ..).symm

/-- Any other character is left out. -/
theorem dropped (h : Written desc result prev) (hsep : isSeparator c = false)
    (hc : isAlnum c = false) : Written (desc ++ [c]) result prev := by
  have hkept := keptChars_concat_dropped hc hsep desc
  have hwords : metricWords (desc ++ [c]) = metricWords desc := by
    unfold metricWords
    rw [hkept]
  refine ⟨?_, ?_⟩
  · unfold Parted
    rw [hwords, hkept]
    exact h.prev
  · unfold metricNameOf
    rw [hwords]
    exact h.result

end Written

/-- The loop, from the middle of a description to its end. -/
theorem metricNameFrom_written {desc result : Bytes} {prev : Bool}
    (h : Written desc result prev) (rest : Bytes) :
    ∃ prev', Written (desc ++ rest) (metricNameFrom result prev rest) prev' := by
  induction rest generalizing desc result prev with
  | nil => exact ⟨prev, by rwa [List.append_nil]⟩
  | cons c rest ih =>
      have hassoc : desc ++ c :: rest = desc ++ [c] ++ rest := by simp
      rw [hassoc]
      unfold metricNameFrom
      split
      · next hsep =>
          split
          · next hfirst =>
              exact ih (h.sep_first hsep hfirst.1 (by simpa using hfirst.2))
          · next hagain =>
              refine ih (h.sep_again hsep ?_)
              by_contra hnot
              rw [not_or] at hnot
              exact hagain hnot
      · next hsep =>
          rw [Bool.not_eq_true] at hsep
          split
          · next hc => exact ih (h.alnum hsep hc)
          · next hc => exact ih (h.dropped hsep (by simpa using hc))

/-- `description_to_metric_name` makes the name that the description stands for. -/
theorem descriptionToMetricName_eq (desc : Bytes) :
    descriptionToMetricName desc = metricNameOf desc := by
  have hstart : Written [] [] false := ⟨by simp [metricWords, keptChars], by rfl⟩
  obtain ⟨prev, h⟩ := metricNameFrom_written hstart desc
  rw [List.nil_append] at h
  unfold descriptionToMetricName
  dsimp only
  rw [h.result]
  cases prev with
  | true => simp [underscore, ascii]
  | false =>
      have hlast := (areWords_metricWords desc).getLast?_ne
      simp only [Bool.false_eq_true, if_false, List.append_nil]
      exact if_neg hlast

/-! ## Well-formed names -/

/-- What is asked of the name of a metric. -/
structure WellFormedName (desc name : Bytes) : Prop where
  first : name.head? ≠ some underscore
  last : name.getLast? ≠ some underscore
  single : ¬ [underscore, underscore] <:+: name
  chars : ∀ b ∈ name, (48 ≤ b ∧ b ≤ 57) ∨ (97 ≤ b ∧ b ≤ 122) ∨ b = underscore
  letters : name.filter (fun b => b ≠ underscore) = (desc.filter isAlnum).map toLower

theorem wellFormedName_metricNameOf (desc : Bytes) : WellFormedName desc (metricNameOf desc) := by
  have hwords := areWords_metricWords desc
  refine ⟨hwords.head?_ne, hwords.getLast?_ne, hwords.not_infix, ?_, ?_⟩
  · intro b hb
    rcases mem_intercalate hb with rfl | ⟨w, hw, hb⟩
    · exact .inr (.inr rfl)
    · rcases (mem_metricWords hw).2 b hb with hdigit | hletter
      · exact .inl hdigit
      · exact .inr (.inl hletter)
  · unfold metricNameOf
    rw [hwords.filter_eq]
    unfold metricWords
    rw [← List.map_flatten, flatten_wordsOf]
    unfold keptChars
    rw [List.filter_filter]
    congr 2
    funext c
    by_cases hc : isAlnum c = true
    · simp [hc, isSeparator_of_isAlnum hc]
    · simp [hc]

/-- `description_to_metric_name` joins the words of the description, and the name is well
formed. -/
theorem descriptionToMetricName_words (desc : Bytes) :
    descriptionToMetricName desc = metricNameOf desc ∧
      WellFormedName desc (descriptionToMetricName desc) := by
  rw [descriptionToMetricName_eq]
  exact ⟨rfl, wellFormedName_metricNameOf desc⟩

example : descriptionToMetricName (ascii "MQPUT/MQPUT1 (%) - rate") = ascii "mqput_mqput1_rate" := by
  decide +kernel

end IbmmqExporter.Monitor
