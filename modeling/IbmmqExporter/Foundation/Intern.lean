/-
  Foundation/Intern.lean --- tables that are filled from lists.

  WHAT THE FILE PROVIDES.  `intern` looks a key up and registers a fresh value if there
  is none.  The value that an element of a list gets does not depend on its place: it
  is the one in the table, or else the fresh value of the first element with its key.
  `intern_fst` says so of the first element, and `resolve_intern` carries it to the rest.
  `fill` puts every element of a list at its key; where the keys are distinct, each
  element is found there.
-/
import Mathlib.Data.Finmap

set_option autoImplicit false

namespace IbmmqExporter.Foundation

/-- A table of values by their keys. -/
abbrev Table (K V : Type) : Type := Finmap fun _ : K => V

section Intern

variable {K V A : Type} [DecidableEq K] (key : A → K) (fresh : A → V)

/-- The value in the table, or a fresh one that is put there. -/
def intern (table : Table K V) (a : A) : V × Table K V :=
  match table.lookup (key a) with
  | some v => (v, table)
  | none => (fresh a, table.insert (key a) (fresh a))

/-- The value that an element gets when it stands in a list: the one in the table, or
the fresh value of the first element with its key. -/
def resolve (table : Table K V) (l : List A) (a : A) : V :=
  (table.lookup (key a)).getD (((l.find? fun b => key b = key a).map fresh).getD (fresh a))

variable {table : Table K V} {a : A} {l : List A}

theorem intern_of_some {v : V} (h : table.lookup (key a) = some v) :
    intern key fresh table a = (v, table) := by
  unfold intern
  rw [h]

theorem intern_of_none (h : table.lookup (key a) = none) :
    intern key fresh table a = (fresh a, table.insert (key a) (fresh a)) := by
  unfold intern
  rw [h]

/-- The first element gets what it would get anywhere. -/
theorem intern_fst (table : Table K V) (a : A) (l : List A) :
    (intern key fresh table a).1 = resolve key fresh table (a :: l) a := by
  unfold resolve
  rw [List.find?_cons_of_pos (by simp)]
  cases h : table.lookup (key a) with
  | some v => rw [intern_of_some key fresh h, Option.getD_some]
  | none => rw [intern_of_none key fresh h]; rfl

/-- What the table has become says of the rest what it said before of the whole. -/
theorem resolve_intern (table : Table K V) (a b : A) (l : List A) :
    resolve key fresh (intern key fresh table a).2 l b = resolve key fresh table (a :: l) b := by
  unfold resolve
  by_cases hkey : key a = key b
  · rw [List.find?_cons_of_pos (by simpa using hkey)]
    cases h : table.lookup (key a) with
    | some v =>
        rw [intern_of_some key fresh h, ← hkey, h]
        rfl
    | none =>
        rw [intern_of_none key fresh h, ← hkey, Finmap.lookup_insert, h]
        rfl
  · rw [List.find?_cons_of_neg (by simpa using hkey)]
    cases h : table.lookup (key a) with
    | some v => rw [intern_of_some key fresh h]
    | none =>
        rw [intern_of_none key fresh h, Finmap.lookup_insert_of_ne _ (Ne.symm hkey)]

end Intern

section Fill

variable {K V A : Type} [DecidableEq K] (key : A → K) (value : Option V → A → V)

/-- Put every element at its key; its value may depend on what is there. -/
def fill (table : Table K V) (l : List A) : Table K V :=
  l.foldl (fun t a => t.insert (key a) (value (t.lookup (key a)) a)) table

theorem fill_cons (table : Table K V) (a : A) (l : List A) :
    fill key value table (a :: l) =
      fill key value (table.insert (key a) (value (table.lookup (key a)) a)) l := rfl

variable {l : List A}

/-- The other keys keep their values. -/
theorem lookup_fill_of_notMem {k : K} (h : ∀ a ∈ l, key a ≠ k) (table : Table K V) :
    (fill key value table l).lookup k = table.lookup k := by
  induction l generalizing table with
  | nil => rfl
  | cons a l ih =>
      rw [fill_cons, ih fun b hb => h b (List.mem_cons_of_mem a hb)]
      exact Finmap.lookup_insert_of_ne _ (h a List.mem_cons_self).symm

/-- Under distinct keys every element is found at its own. -/
theorem lookup_fill_of_mem (hdistinct : (l.map key).Nodup) {a : A} (ha : a ∈ l)
    (table : Table K V) :
    (fill key value table l).lookup (key a) = some (value (table.lookup (key a)) a) := by
  induction l generalizing table with
  | nil => cases ha
  | cons b l ih =>
      rw [List.map_cons, List.nodup_cons] at hdistinct
      obtain ⟨hnew, hdistinct⟩ := hdistinct
      have hfresh (c : A) (hc : c ∈ l) : key c ≠ key b :=
        fun h => hnew (h ▸ List.mem_map_of_mem hc)
      rw [fill_cons]
      rcases List.mem_cons.mp ha with rfl | ha
      · rw [lookup_fill_of_notMem key value hfresh, Finmap.lookup_insert]
      · rw [ih hdistinct ha, Finmap.lookup_insert_of_ne _ (hfresh a ha)]

end Fill

end IbmmqExporter.Foundation
