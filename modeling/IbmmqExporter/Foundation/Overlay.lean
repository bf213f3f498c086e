/-
  Foundation/Overlay.lean --- entries written over a map.

  A list of entries is a map in two ways: initializing a map with it the first entry of a
  key stays, writing it over a map the last one does.

  WHAT THE FILE PROVIDES.  What is found in either map; when writing over a map changes
  none of its values (`keeps_iff`); and when two maps are the same with the entries
  written over both (`overlay_inj_iff`).
-/
import Mathlib.Data.Finmap

set_option autoImplicit false

namespace IbmmqExporter.Foundation

variable {α β : Type} [DecidableEq α] [BEq α]

/-! ## Two maps of a list -/

/-- The map that is initialized with the entries. -/
def ofEntries (entries : List (α × β)) : Finmap fun _ : α => β :=
  entries.foldr (fun e m => m.insert e.1 e.2) ∅

/-- The map with the entries written over it. -/
def overlay (entries : List (α × β)) (m : Finmap fun _ : α => β) : Finmap fun _ : α => β :=
  entries.foldl (fun m e => m.insert e.1 e.2) m

/-- The value that the list gives a key at last. -/
def lastValue (entries : List (α × β)) (a : α) : Option β := entries.reverse.lookup a

omit [DecidableEq α] in
theorem lastValue_append (entries entries' : List (α × β)) (a : α) :
    lastValue (entries ++ entries') a = (lastValue entries' a).or (lastValue entries a) := by
  unfold lastValue
  rw [List.reverse_append, List.lookup_append]

variable [LawfulBEq α]

theorem lookup_insert_eq (m : Finmap fun _ : α => β) (k a : α) (b : β) :
    (m.insert k b).lookup a = (List.lookup a [(k, b)]).or (m.lookup a) := by
  by_cases h : a = k
  · subst h
    rw [Finmap.lookup_insert, List.lookup_cons_self]
    rfl
  · rw [Finmap.lookup_insert_of_ne _ h, List.lookup_cons, beq_false_of_ne h]
    rfl

theorem lookup_ofEntries (entries : List (α × β)) (a : α) :
    (ofEntries entries).lookup a = entries.lookup a := by
  induction entries with
  | nil => rfl
  | cons e entries ih =>
      rw [← List.singleton_append, List.lookup_append, ← ih]
      exact lookup_insert_eq _ _ _ _

theorem lookup_overlay (entries : List (α × β)) (m : Finmap fun _ : α => β) (a : α) :
    (overlay entries m).lookup a = (lastValue entries a).or (m.lookup a) := by
  induction entries generalizing m with
  | nil => rfl
  | cons e entries ih =>
      have hlast : lastValue (e :: entries) a = (lastValue entries a).or (List.lookup a [e]) :=
        lastValue_append [e] entries a
      rw [hlast, Option.or_assoc, ← lookup_insert_eq]
      exact ih _

theorem lookup_overlay_of_none {entries : List (α × β)} {a : α}
    (h : lastValue entries a = none) (m : Finmap fun _ : α => β) :
    (overlay entries m).lookup a = m.lookup a := by
  rw [lookup_overlay, h]
  rfl

/-! ## Values that stay -/

/-- Writing the entries over the map changes none of its values. -/
def Keeps (entries : List (α × β)) (m : Finmap fun _ : α => β) : Prop :=
  ∀ a b, m.lookup a = some b → (overlay entries m).lookup a = some b

/-- The values stay if and only if each of the keys that is written gets its value
back. -/
theorem keeps_iff {entries : List (α × β)} {m : Finmap fun _ : α => β} :
    Keeps entries m ↔
      ∀ a b b', m.lookup a = some b → lastValue entries a = some b' → b' = b := by
  constructor
  · intro h a b b' hb hb'
    have hkept := h a b hb
    rw [lookup_overlay, hb'] at hkept
    exact Option.some.inj hkept
  · intro h a b hb
    rw [lookup_overlay, hb]
    cases hlast : lastValue entries a with
    | none => rfl
    | some b' => exact congrArg some (h a b b' hb hlast)

/-- Of two maps that are the same but for what is written over them. -/
theorem overlay_inj_iff {entries : List (α × β)} {m m' : Finmap fun _ : α => β} :
    overlay entries m = overlay entries m' ↔
      ∀ a, lastValue entries a = none → m.lookup a = m'.lookup a := by
  constructor
  · intro h a ha
    rw [← lookup_overlay_of_none ha m, h, lookup_overlay_of_none ha m']
  · intro h
    refine Finmap.ext_lookup fun a => ?_
    rw [lookup_overlay, lookup_overlay]
    cases hlast : lastValue entries a with
    | none => rw [h a hlast]
    | some b => rfl

end IbmmqExporter.Foundation
