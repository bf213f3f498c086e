/-
  Foundation/Fields.lean --- records that a loop fills.

  A loop over a list assigns the fields of a record; an element gives a field a value
  or leaves it alone.

  WHAT THE FILE PROVIDES.  A field holds in the end what the last element that gives it
  a value gives (`foldl_field`).
-/
import Mathlib.Data.List.Basic

set_option autoImplicit false

namespace IbmmqExporter.Foundation

variable {σ π ν : Type}

/-- The value that the last element of the list that gives one gives; `v` if none
does. -/
def lastOf (given : π → Option ν) (l : List π) (v : ν) : ν := (l.filterMap given).getLast?.getD v

section LastOf

variable {given : π → Option ν}

@[simp] theorem lastOf_nil (v : ν) : lastOf given [] v = v := rfl

theorem lastOf_append (l l' : List π) (v : ν) :
    lastOf given (l ++ l') v = lastOf given l' (lastOf given l v) := by
  unfold lastOf
  rw [List.filterMap_append, List.getLast?_append]
  cases (l'.filterMap given).getLast? <;> rfl

theorem lastOf_cons (p : π) (l : List π) (v : ν) :
    lastOf given (p :: l) v = lastOf given l ((given p).getD v) := by
  rw [← List.singleton_append, lastOf_append]
  congr 1
  cases hp : given p <;> simp [lastOf, hp]

theorem lastOf_of_none {l : List π} (h : ∀ p ∈ l, given p = none) (v : ν) :
    lastOf given l v = v := by
  rw [lastOf, List.filterMap_eq_nil_iff.mpr h]
  rfl

/-- Nothing behind the element gives a value. -/
theorem lastOf_split {before after : List π} {p : π} {u : ν} (hp : given p = some u)
    (h : ∀ q ∈ after, given q = none) (v : ν) : lastOf given (before ++ p :: after) v = u := by
  rw [lastOf_append, lastOf_cons, hp, lastOf_of_none h]
  rfl

/-- A list in which some element gives a value has a last such element. -/
theorem exists_last {l : List π} (h : ∃ p ∈ l, given p ≠ none) :
    ∃ before p after, l = before ++ p :: after ∧ given p ≠ none ∧
      ∀ q ∈ after, given q = none := by
  induction l with
  | nil =>
      obtain ⟨p, hp, -⟩ := h
      cases hp
  | cons a l ih =>
      by_cases hl : ∃ p ∈ l, given p ≠ none
      · obtain ⟨before, p, after, rfl, hp, hafter⟩ := ih hl
        exact ⟨a :: before, p, after, rfl, hp, hafter⟩
      · have hrest : ∀ q ∈ l, given q = none := by
          intro q hq
          by_contra hgiven
          exact hl ⟨q, hq, hgiven⟩
        obtain ⟨p, hp, hgiven⟩ := h
        rcases List.mem_cons.mp hp with rfl | hp
        · exact ⟨[], p, l, rfl, hgiven, hrest⟩
        · exact absurd (hrest p hp) hgiven

end LastOf

/-- A field that every element assigns or leaves alone holds what was assigned last. -/
theorem foldl_field (field : σ → ν) {step : σ → π → σ} {given : π → Option ν} {l : List π}
    (h : ∀ s, ∀ p ∈ l, field (step s p) = (given p).getD (field s)) (s : σ) :
    field (l.foldl step s) = lastOf given l (field s) := by
  induction l generalizing s with
  | nil => rfl
  | cons p l ih =>
      rw [List.foldl_cons, ih fun s q hq => h s q (List.mem_cons_of_mem p hq),
        h s p List.mem_cons_self, lastOf_cons]

end IbmmqExporter.Foundation
