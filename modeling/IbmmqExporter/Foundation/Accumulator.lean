/-
  Foundation/Accumulator.lean --- a register that is assigned and added to.

  Some writes assign the register a value and others add to what it holds.

  WHAT THE FILE PROVIDES.  What the register holds in the end; when that is the sum of
  all the values written, in whatever order; when it fails to be, an order that shows
  it.  For a register of machine integers: when every addition is exact.
-/
import Mathlib.Algebra.BigOperators.Group.List.Basic
import Mathlib.Algebra.Group.Basic
import Mathlib.Data.List.Induction
import Mathlib.Tactic.Common

set_option autoImplicit false

namespace IbmmqExporter.Foundation

/-- What is written to a register. -/
inductive Write (M : Type) where
  | assign (v : M)
  | add (v : M)
  deriving DecidableEq, Repr

namespace Write

variable {M N : Type}

/-- The value, whichever way it is written. -/
def value : Write M → M
  | assign v => v
  | add v => v

/-- The value that is assigned. -/
def assigned : Write M → Option M
  | assign v => some v
  | add _ => none

/-- The write with another value. -/
def map (f : M → N) : Write M → Write N
  | assign v => assign (f v)
  | add v => add (f v)

@[simp] theorem filterMap_assigned_assign (v : M) (ws : List (Write M)) :
    (assign v :: ws).filterMap assigned = v :: ws.filterMap assigned := rfl

@[simp] theorem filterMap_assigned_add (v : M) (ws : List (Write M)) :
    (add v :: ws).filterMap assigned = ws.filterMap assigned := rfl

@[simp] theorem mem_filterMap_assigned {ws : List (Write M)} {v : M} :
    v ∈ ws.filterMap assigned ↔ assign v ∈ ws := by
  rw [List.mem_filterMap]
  constructor
  · rintro ⟨w, hw, hv⟩
    cases w with
    | assign u =>
        cases hv
        exact hw
    | add u => cases hv
  · intro h
    exact ⟨assign v, h, rfl⟩

section Run

variable [AddCommMonoid M]

/-- The register after a write. -/
def apply (x : M) : Write M → M
  | assign v => v
  | add v => x + v

/-- The register after some writes. -/
def run (x : M) (ws : List (Write M)) : M := ws.foldl apply x

@[simp] theorem run_nil (x : M) : run x [] = x := rfl

@[simp] theorem run_cons (x : M) (w : Write M) (ws : List (Write M)) :
    run x (w :: ws) = run (w.apply x) ws := rfl

theorem run_append (x : M) (ws ws' : List (Write M)) :
    run x (ws ++ ws') = run (run x ws) ws' := List.foldl_append ..

theorem run_concat (x : M) (ws : List (Write M)) (w : Write M) :
    run x (ws ++ [w]) = w.apply (run x ws) := run_append x ws [w]

/-- Nothing is assigned: the values add up. -/
theorem run_of_adds {ws : List (Write M)} (h : ws.filterMap assigned = []) (x : M) :
    run x ws = x + (ws.map value).sum := by
  induction ws generalizing x with
  | nil => exact (add_zero x).symm
  | cons w ws ih =>
      cases w with
      | assign v => cases h
      | add v => calc run (x + v) ws = x + v + (ws.map value).sum := ih h (x + v)
          _ = x + (v + (ws.map value).sum) := add_assoc x v _

theorem run_map_add {α : Type} (f : α → M) (l : List α) :
    run 0 (l.map fun a => add (f a)) = (l.map f).sum := by
  rw [run_of_adds (by simp [assigned]), zero_add, List.map_map]
  rfl

/-- Nothing but zero is added: the register holds what was assigned last. -/
theorem run_of_assigns {ws : List (Write M)} (h : ∀ a, add a ∈ ws → a = 0) (x : M) :
    run x ws = (ws.filterMap assigned).getLast?.getD x := by
  induction ws using List.reverseRecOn with
  | nil => rfl
  | append_singleton ws w ih =>
      rw [run_concat, ih fun a ha => h a (List.mem_append_left _ ha), List.filterMap_append]
      cases w with
      | assign v => simp [apply]
      | add v =>
          have hv : v = 0 := h v (by simp)
          simp [apply, hv]

/-- Nothing but zero is added: the sum is that of the assigned values. -/
theorem sum_of_assigns {ws : List (Write M)} (h : ∀ a, add a ∈ ws → a = 0) :
    (ws.map value).sum = (ws.filterMap assigned).sum := by
  induction ws with
  | nil => rfl
  | cons w ws ih =>
      have htail := ih fun a ha => h a (List.mem_cons_of_mem w ha)
      cases w with
      | assign v => simp [value, htail]
      | add v =>
          have hv : v = 0 := h v List.mem_cons_self
          simp [value, htail, hv]

/-- Once something is assigned, it does not matter what the register held before. -/
theorem run_eq_of_assign {ws : List (Write M)} {v : M} (h : assign v ∈ ws) (x y : M) :
    run x ws = run y ws := by
  obtain ⟨before, after, rfl⟩ := List.append_of_mem h
  rw [run_append, run_append, run_cons, run_cons]
  rfl

/-- The values add up if at most one is assigned, and nothing but zero is added to
it. -/
theorem run_eq_sum {ws : List (Write M)} (hone : (ws.filterMap assigned).length ≤ 1)
    (hzero : ∀ v, assign v ∈ ws → ∀ a, add a ∈ ws → a = 0) :
    run 0 ws = (ws.map value).sum := by
  by_cases hnone : ws.filterMap assigned = []
  · rw [run_of_adds hnone, zero_add]
  · obtain ⟨v, hv⟩ := List.exists_mem_of_ne_nil _ hnone
    have hadds := hzero v (mem_filterMap_assigned.mp hv)
    have hsingle : ws.filterMap assigned = [v] := by
      obtain ⟨u, hu⟩ := List.length_eq_one_iff.mp
        (Nat.le_antisymm hone (List.length_pos_of_mem hv))
      rw [hu] at hv ⊢
      rw [List.mem_singleton.mp hv]
    rw [run_of_assigns hadds, sum_of_assigns hadds, hsingle]
    exact (List.sum_singleton).symm

end Run

/-- If it does not matter whether something is added first or last, and something else
is assigned, it is zero. -/
theorem add_eq_zero {M : Type} [AddCommGroup M] {ws : List (Write M)} {v a : M}
    (h : assign v ∈ ws) (x : M) (hrun : run x (add a :: ws) = run x (ws ++ [add a])) :
    a = 0 := by
  rw [run_cons, run_concat, run_eq_of_assign h _ x] at hrun
  exact left_eq_add.mp hrun

/-! ## Machine integers -/

section Exact

variable {M : Type} [AddCommMonoid M] {toInt : M → ℤ} {Fits : ℤ → Prop}

/-- The integers of a machine: those that fit, with an addition that is exact when the
sum fits. -/
structure MachineInt (toInt : M → ℤ) (Fits : ℤ → Prop) : Prop where
  zero : toInt 0 = 0
  fits (a : M) : Fits (toInt a)
  add_iff (a b : M) : toInt (a + b) = toInt a + toInt b ↔ Fits (toInt a + toInt b)

/-- Every addition to the register is exact; it starts at zero. -/
def ExactAdds (toInt : M → ℤ) (ws : List (Write M)) : Prop :=
  ∀ done a, done ++ [add a] <+: ws →
    toInt (run 0 done + a) = toInt (run 0 done) + toInt a

theorem exactAdds_concat {ws : List (Write M)} {w : Write M} :
    ExactAdds toInt (ws ++ [w]) ↔
      ExactAdds toInt ws ∧
        ∀ a, w = add a → toInt (run 0 ws + a) = toInt (run 0 ws) + toInt a := by
  constructor
  · intro h
    refine ⟨?_, ?_⟩
    · intro done a hdone
      exact h done a (hdone.trans (List.prefix_append ws [w]))
    · rintro a rfl
      exact h ws a (List.prefix_refl _)
  · rintro ⟨hws, hw⟩ done a hdone
    rcases List.prefix_concat_iff.mp hdone with heq | hdone
    · obtain ⟨rfl, hwa⟩ := List.append_inj' heq rfl
      exact hw a (List.head_eq_of_cons_eq hwa).symm
    · exact hws done a hdone

/-- The register holds the exact value if every addition is exact. -/
theorem run_exact (hM : MachineInt toInt Fits) {ws : List (Write M)}
    (h : ExactAdds toInt ws) : toInt (run 0 ws) = run 0 (ws.map (map toInt)) := by
  induction ws using List.reverseRecOn with
  | nil => exact hM.zero
  | append_singleton ws w ih =>
      obtain ⟨hws, hw⟩ := exactAdds_concat.mp h
      rw [List.map_append, List.map_singleton, run_concat, run_concat, ← ih hws]
      cases w with
      | assign v => rfl
      | add v => exact hw v rfl

/-- Every addition is exact if and only if the exact values fit all the way. -/
theorem exactAdds_iff (hM : MachineInt toInt Fits) (ws : List (Write M)) :
    ExactAdds toInt ws ↔ ∀ done, done <+: ws → Fits (run 0 (done.map (map toInt))) := by
  induction ws using List.reverseRecOn with
  | nil =>
      have hzero : Fits 0 := hM.zero ▸ hM.fits 0
      simp [ExactAdds, hzero]
  | append_singleton ws w ih =>
      rw [exactAdds_concat]
      constructor
      · rintro ⟨hws, hw⟩ done hdone
        rcases List.prefix_concat_iff.mp hdone with rfl | hdone
        · rw [← run_exact hM (exactAdds_concat.mpr ⟨hws, hw⟩)]
          exact hM.fits _
        · exact ih.mp hws done hdone
      · intro h
        have hws := ih.mpr fun done hdone => h done (hdone.trans (List.prefix_append ws [w]))
        refine ⟨hws, ?_⟩
        rintro a rfl
        have hfits := h (ws ++ [add a]) (List.prefix_refl _)
        rw [List.map_append, List.map_singleton, run_concat, ← run_exact hM hws] at hfits
        exact (hM.add_iff _ _).mpr hfits

/-- The same for writes that are made from the elements of a list: `f` makes the writes
of the machine and `g` the exact ones. -/
theorem exactAdds_map_iff {α : Type} (hM : MachineInt toInt Fits) {f : α → Write M}
    {g : α → Write ℤ} {l : List α} (hfg : ∀ a ∈ l, (f a).map toInt = g a) :
    ExactAdds toInt (l.map f) ↔ ∀ done, done <+: l → Fits (run 0 (done.map g)) := by
  have hexact {done : List α} (hdone : done <+: l) : (done.map f).map (map toInt) = done.map g := by
    rw [List.map_map]
    apply List.map_congr_left
    intro a ha
    exact hfg a (hdone.subset ha)
  rw [exactAdds_iff hM]
  constructor
  · intro h done hdone
    rw [← hexact hdone]
    exact h _ (hdone.map f)
  · intro h done' hdone'
    obtain ⟨done, hdone, rfl⟩ := List.prefix_map_iff.mp hdone'
    rw [hexact hdone]
    exact h done hdone

/-- The exact value of a register that is written from a list. -/
theorem run_map_exact {α : Type} (hM : MachineInt toInt Fits) {f : α → Write M}
    {g : α → Write ℤ} {l : List α} (hfg : ∀ a ∈ l, (f a).map toInt = g a)
    (h : ExactAdds toInt (l.map f)) : toInt (run 0 (l.map f)) = run 0 (l.map g) := by
  rw [run_exact hM h, List.map_map]
  congr 1
  exact List.map_congr_left hfg

end Exact

end Write

/-! ### `int32_t` and `int64_t` -/

instance addCommGroupInt32 : AddCommGroup Int32 where
  add_assoc := Int32.add_assoc
  zero_add := Int32.zero_add
  add_zero := Int32.add_zero
  add_comm := Int32.add_comm
  neg_add_cancel := Int32.add_left_neg
  sub_eq_add_neg := Int32.sub_eq_add_neg
  nsmul := nsmulRec
  zsmul := zsmulRec

instance addCommGroupInt64 : AddCommGroup Int64 where
  add_assoc := Int64.add_assoc
  zero_add := Int64.zero_add
  add_zero := Int64.add_zero
  add_comm := Int64.add_comm
  neg_add_cancel := Int64.add_left_neg
  sub_eq_add_neg := Int64.sub_eq_add_neg
  nsmul := nsmulRec
  zsmul := zsmulRec

/-- The values of an `int32_t`. -/
def InInt32 (n : ℤ) : Prop := -2 ^ 31 ≤ n ∧ n < 2 ^ 31

/-- The values of an `int64_t`. -/
def InInt64 (n : ℤ) : Prop := -2 ^ 63 ≤ n ∧ n < 2 ^ 63

instance (n : ℤ) : Decidable (InInt32 n) := inferInstanceAs (Decidable (_ ∧ _))

instance (n : ℤ) : Decidable (InInt64 n) := inferInstanceAs (Decidable (_ ∧ _))

theorem InInt32.inInt64 {n : ℤ} (h : InInt32 n) : InInt64 n := by
  unfold InInt32 at h
  unfold InInt64
  omega

theorem inInt32_toInt (a : Int32) : InInt32 a.toInt := ⟨a.le_toInt, a.toInt_lt⟩

theorem inInt64_toInt (a : Int64) : InInt64 a.toInt := ⟨a.le_toInt, a.toInt_lt⟩

/-- A number that is reduced to 32 bits stays what it is if and only if it fits. -/
theorem bmod_eq_self_iff_inInt32 (n : ℤ) : n.bmod (2 ^ 32) = n ↔ InInt32 n := by
  unfold InInt32
  rw [Int.bmod_def]
  split <;> omega

theorem bmod_eq_self_iff_inInt64 (n : ℤ) : n.bmod (2 ^ 64) = n ↔ InInt64 n := by
  unfold InInt64
  rw [Int.bmod_def]
  split <;> omega

theorem machineInt_int32 : Write.MachineInt Int32.toInt InInt32 where
  zero := rfl
  fits := inInt32_toInt
  add_iff a b := by rw [Int32.toInt_add, bmod_eq_self_iff_inInt32]

theorem machineInt_int64 : Write.MachineInt Int64.toInt InInt64 where
  zero := rfl
  fits := inInt64_toInt
  add_iff a b := by rw [Int64.toInt_add, bmod_eq_self_iff_inInt64]

/-- Narrowing keeps exactly the values that fit. -/
theorem toInt_toInt32_eq_iff (v : Int64) : v.toInt32.toInt = v.toInt ↔ InInt32 v.toInt := by
  rw [Int64.toInt_toInt32, bmod_eq_self_iff_inInt32]

end IbmmqExporter.Foundation
