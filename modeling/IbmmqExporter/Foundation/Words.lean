/-
  Foundation/Words.lean --- lists cut into words, and words put in a row.

  The separators of a list cut it into words; what stands between two separators next
  to each other is no word.  In a row of words one separator stands between each two.

  WHAT THE FILE PROVIDES.  The words of a list that grows at its end: a separator adds
  none (`wordsOf_concat_sep`), another element begins a word behind a separator
  (`wordsOf_concat_first`) and goes on with the last one otherwise
  (`wordsOf_concat_next`).  A row of words does not begin or end with the separator, has
  it nowhere twice in succession, and without the separators it is the words
  (`WordRow`).
-/
import Mathlib.Data.List.Chain
import Mathlib.Data.List.DropRight

set_option autoImplicit false

namespace IbmmqExporter.Foundation

variable {α : Type}

/-! ## Words -/

section Words

variable (p : α → Bool)

/-- The words of a list, `p` telling the separators. -/
def wordsOf (s : List α) : List (List α) := (s.splitOnP p).filter fun w => !w.isEmpty

@[simp] theorem wordsOf_nil : wordsOf p [] = [] := rfl

variable {p} {s u : List α} {c : α}

theorem wordsOf_concat_sep (hc : p c = true) : wordsOf p (s ++ [c]) = wordsOf p s := by
  unfold wordsOf
  rw [List.splitOnP_append_cons s [] hc, List.filter_append]
  simp

/-- Behind a separator the words of the rest follow. -/
theorem wordsOf_append (hs : ∀ b ∈ s.getLast?, p b = true) :
    wordsOf p (s ++ u) = wordsOf p s ++ wordsOf p u := by
  rcases List.eq_nil_or_concat s with rfl | ⟨t, b, rfl⟩
  · simp
  · have hb : p b = true := hs b (by simp)
    rw [List.concat_eq_append] at *
    rw [wordsOf_concat_sep hb, List.append_assoc, List.singleton_append]
    unfold wordsOf
    rw [List.splitOnP_append_cons t u hb, List.filter_append]

/-- A list without separators is a word. -/
theorem wordsOf_of_none (hu : ∀ b ∈ u, p b = false) (hne : u ≠ []) : wordsOf p u = [u] := by
  unfold wordsOf
  rw [List.splitOnP_eq_singleton hu, List.filter_cons_of_pos (by simpa using hne)]
  rfl

theorem wordsOf_concat_first (hs : ∀ b ∈ s.getLast?, p b = true) (hc : p c = false) :
    wordsOf p (s ++ [c]) = wordsOf p s ++ [[c]] := by
  rw [wordsOf_append hs, wordsOf_of_none (by simpa using hc) (List.cons_ne_nil _ _)]

theorem wordsOf_concat_next {b : α} (hs : s.getLast? = some b) (hb : p b = false)
    (hc : p c = false) :
    ∃ ws w, wordsOf p s = ws ++ [w] ∧ wordsOf p (s ++ [c]) = ws ++ [w ++ [c]] := by
  obtain ⟨s, rfl⟩ := List.getLast?_eq_some_iff.mp hs
  -- the last word, and all in front of it
  let w := s.rtakeWhile fun x => !p x
  let t := s.rdropWhile fun x => !p x
  have hsplit : t ++ w = s := List.rdropWhile_append_rtakeWhile
  have hw : ∀ x ∈ w, p x = false := fun x hx => by simpa using List.mem_rtakeWhile_imp hx
  have ht : ∀ x ∈ t.getLast?, p x = true := by
    intro x hx
    have hne : t ≠ [] := by
      rintro hnil
      rw [hnil] at hx
      cases hx
    have hlast := List.rdropWhile_last_not (fun x => !p x) s hne
    rw [Option.mem_def, List.getLast?_eq_some_getLast hne, Option.some_inj] at hx
    rw [← hx]
    simpa using hlast
  have hword {v : List α} (hv : ∀ x ∈ v, p x = false) (hne : v ≠ []) :
      wordsOf p (t ++ v) = wordsOf p t ++ [v] := by
    rw [wordsOf_append ht, wordsOf_of_none hv hne]
  refine ⟨wordsOf p t, w ++ [b], ?_, ?_⟩
  · rw [← hsplit, List.append_assoc]
    exact hword (by simpa [or_imp, forall_and, hb] using hw) (by simp)
  · rw [← hsplit, List.append_assoc, List.append_assoc, List.append_assoc]
    exact hword (by simpa [or_imp, forall_and, hb, hc] using hw) (by simp)

/-- A word is not empty, and has no separators. -/
theorem mem_wordsOf {w : List α} (hw : w ∈ wordsOf p s) :
    w ≠ [] ∧ ∀ b ∈ w, p b = false ∧ b ∈ s := by
  induction s using List.reverseRecOn generalizing w with
  | nil => cases hw
  | append_singleton s c ih =>
      have hold {w : List α} (hw : w ∈ wordsOf p s) :
          w ≠ [] ∧ ∀ b ∈ w, p b = false ∧ b ∈ s ++ [c] := by
        obtain ⟨hne, hall⟩ := ih hw
        exact ⟨hne, fun b hb => ⟨(hall b hb).1, List.mem_append_left _ (hall b hb).2⟩⟩
      by_cases hc : p c = true
      · rw [wordsOf_concat_sep hc] at hw
        exact hold hw
      · rw [Bool.not_eq_true] at hc
        by_cases hs : ∀ b ∈ s.getLast?, p b = true
        · rw [wordsOf_concat_first hs hc] at hw
          rcases List.mem_append.mp hw with hw | hw
          · exact hold hw
          · obtain rfl := List.mem_singleton.mp hw
            simp [hc]
        · push Not at hs
          obtain ⟨b, hlast, hb⟩ := hs
          obtain ⟨ws, v, hv, hvc⟩ := wordsOf_concat_next hlast (by simpa using hb) hc
          rw [hvc] at hw
          rcases List.mem_append.mp hw with hw | hw
          · exact hold (hv ▸ List.mem_append_left _ hw)
          · obtain rfl := List.mem_singleton.mp hw
            refine ⟨by simp, fun x hx => ?_⟩
            rcases List.mem_append.mp hx with hx | hx
            · exact (hold (hv ▸ List.mem_append_right ws List.mem_cons_self)).2 x hx
            · obtain rfl := List.mem_singleton.mp hx
              exact ⟨hc, by simp⟩

/-- The words are what is no separator. -/
theorem flatten_wordsOf (s : List α) : (wordsOf p s).flatten = s.filter fun b => !p b := by
  induction s using List.reverseRecOn with
  | nil => rfl
  | append_singleton s c ih =>
      rw [List.filter_append, ← ih]
      by_cases hc : p c = true
      · rw [wordsOf_concat_sep hc]
        simp [hc]
      · rw [Bool.not_eq_true] at hc
        by_cases hs : ∀ b ∈ s.getLast?, p b = true
        · rw [wordsOf_concat_first hs hc]
          simp [hc]
        · push Not at hs
          obtain ⟨b, hlast, hb⟩ := hs
          obtain ⟨ws, v, hv, hvc⟩ := wordsOf_concat_next hlast (by simpa using hb) hc
          rw [hv, hvc]
          simp [hc]

end Words

/-! ## Rows of words -/

section Rows

variable {sep : α} {ws : List (List α)}

theorem intercalate_concat (hne : ws ≠ []) (w : List α) :
    [sep].intercalate (ws ++ [w]) = [sep].intercalate ws ++ sep :: w := by
  induction ws with
  | nil => exact absurd rfl hne
  | cons v ws ih =>
      cases ws with
      | nil => simp
      | cons v' ws =>
          rw [List.cons_append, List.cons_append, List.intercalate_cons_cons,
            List.intercalate_cons_cons, ← List.cons_append, ih (List.cons_ne_nil _ _)]
          simp

/-- The last word may go on. -/
theorem intercalate_concat_append (w u : List α) :
    [sep].intercalate (ws ++ [w ++ u]) = [sep].intercalate (ws ++ [w]) ++ u := by
  cases ws with
  | nil => simp
  | cons v ws =>
      rw [intercalate_concat (List.cons_ne_nil _ _), intercalate_concat (List.cons_ne_nil _ _)]
      simp

/-- Words that a row can be cut into again. -/
def AreWords (sep : α) (ws : List (List α)) : Prop := ∀ w ∈ ws, w ≠ [] ∧ sep ∉ w

theorem mem_intercalate {b : α} (hb : b ∈ [sep].intercalate ws) : b = sep ∨ ∃ w ∈ ws, b ∈ w := by
  induction ws with
  | nil => cases hb
  | cons w ws ih =>
      cases ws with
      | nil => exact .inr ⟨w, by simp, by simpa using hb⟩
      | cons v ws =>
          rw [List.intercalate_cons_cons] at hb
          rcases List.mem_append.mp hb with hb | hb
          · rcases List.mem_append.mp hb with hb | hb
            · exact .inr ⟨w, List.mem_cons_self, hb⟩
            · exact .inl (List.mem_singleton.mp hb)
          · rcases ih hb with rfl | ⟨v', hv', hb⟩
            · exact .inl rfl
            · exact .inr ⟨v', List.mem_cons_of_mem _ hv', hb⟩

namespace AreWords

theorem eq_nil_iff (h : AreWords sep ws) : [sep].intercalate ws = [] ↔ ws = [] := by
  constructor
  · intro hnil
    cases ws with
    | nil => rfl
    | cons w ws =>
        refine absurd ?_ (h w List.mem_cons_self).1
        cases ws with
        | nil => simpa using hnil
        | cons v ws => simp [List.intercalate_cons_cons] at hnil
  · rintro rfl
    rfl

theorem head?_ne (h : AreWords sep ws) : ([sep].intercalate ws).head? ≠ some sep := by
  cases ws with
  | nil => simp
  | cons w ws =>
      obtain ⟨hne, hmem⟩ := h w List.mem_cons_self
      obtain ⟨b, w, rfl⟩ := List.exists_cons_of_ne_nil hne
      have hb : b ≠ sep := fun hb => hmem (by simp [hb])
      cases ws with
      | nil => simpa using hb
      | cons v ws => simpa [List.intercalate_cons_cons] using hb

theorem getLast?_ne (h : AreWords sep ws) : ([sep].intercalate ws).getLast? ≠ some sep := by
  rcases List.eq_nil_or_concat ws with rfl | ⟨vs, w, rfl⟩
  · simp
  · rw [List.concat_eq_append] at *
    obtain ⟨hne, hmem⟩ := h w (by simp)
    have hlast : w.getLast? ≠ some sep := fun hlast => hmem (List.mem_of_getLast? hlast)
    cases vs with
    | nil => simpa using hlast
    | cons v vs =>
        rw [intercalate_concat (List.cons_ne_nil _ _), List.getLast?_append_of_ne_nil _ (by simp)]
        rw [List.getLast?_cons_of_ne_nil hne]
        exact hlast

theorem isChain (h : AreWords sep ws) :
    ([sep].intercalate ws).IsChain fun a b => ¬ (a = sep ∧ b = sep) := by
  induction ws with
  | nil => exact List.IsChain.nil
  | cons w ws ih =>
      obtain ⟨hw, hws⟩ := List.forall_mem_cons.mp h
      have hword : w.IsChain fun a b => ¬ (a = sep ∧ b = sep) := by
        rw [List.isChain_iff_forall_rel_of_append_cons_cons]
        rintro a b l₁ l₂ rfl ⟨rfl, -⟩
        exact hw.2 (by simp)
      cases ws with
      | nil => simpa using hword
      | cons v ws =>
          rw [List.intercalate_cons_cons, List.append_assoc]
          refine hword.append ?_ fun x hx y _ hxy => hw.2 (hxy.1 ▸ List.mem_of_getLast? hx)
          rw [List.singleton_append, List.isChain_cons]
          exact ⟨fun y hy hxy => head?_ne hws (hxy.2 ▸ hy), ih hws⟩

/-- The separator does not stand twice in succession. -/
theorem not_infix (h : AreWords sep ws) : ¬ [sep, sep] <:+: [sep].intercalate ws := by
  rintro ⟨s, t, hst⟩
  have hrel := List.isChain_iff_forall_rel_of_append_cons_cons.mp h.isChain
    (show _ = s ++ sep :: sep :: t by simp [← hst])
  exact hrel ⟨rfl, rfl⟩

/-- Without the separators the row is the words. -/
theorem filter_eq [DecidableEq α] (h : AreWords sep ws) :
    ([sep].intercalate ws).filter (fun b => b ≠ sep) = ws.flatten := by
  induction ws with
  | nil => rfl
  | cons w ws ih =>
      obtain ⟨hw, hws⟩ := List.forall_mem_cons.mp h
      have hword : w.filter (fun b => b ≠ sep) = w := by
        rw [List.filter_eq_self]
        intro b hb
        exact decide_eq_true fun hsep => hw.2 (hsep ▸ hb)
      cases ws with
      | nil => simpa using hword
      | cons v ws =>
          rw [List.intercalate_cons_cons, List.filter_append, List.filter_append, hword, ih hws]
          simp

end AreWords

end Rows

end IbmmqExporter.Foundation
