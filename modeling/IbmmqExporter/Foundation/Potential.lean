/-
  Foundation/Potential.lean --- what the steps of a run spend, paid for in advance.

  A state has a potential.  A step may spend what it earns and what it takes from the
  potential, and puts back what is left over.

  WHAT THE FILE PROVIDES.  In a run, and in each of its parts, no more is spent than has
  been earned, but for the potential of the first state (`Funds.spent_le`).  Where nothing
  is earned this bounds the steps of a kind behind a state (`Funds.countP_le`), and where a
  step of one kind costs as much as many of another earn, the one kind is as much rarer
  (`Funds.mul_countP_le`).
-/
import Mathlib.Algebra.BigOperators.Group.List.Basic
import Mathlib.Tactic.Ring
import IbmmqExporter.Foundation.History

set_option autoImplicit false

namespace IbmmqExporter.Foundation

variable {σ α : Type} {step : σ → α → Option σ} {s : σ} {actions : List α}
  {trace : List (Transition σ α)}

/-! ## The end of a run -/

/-- The steps behind a step are a run that begins where it ends. -/
theorem history_behind {before behind : List (Transition σ α)} {t : Transition σ α}
    (hrun : history step s actions = some (before ++ t :: behind)) :
    ∃ actions', history step t.after actions' = some behind := by
  induction before generalizing s actions with
  | nil =>
      cases actions with
      | nil => cases hrun
      | cons a actions =>
          obtain ⟨s', rest, -, hrest, heq⟩ := history_cons hrun
          obtain ⟨rfl, rfl⟩ := List.cons.inj heq
          exact ⟨actions, hrest⟩
  | cons u before ih =>
      cases actions with
      | nil => cases hrun
      | cons a actions =>
          obtain ⟨s', rest, -, hrest, heq⟩ := history_cons hrun
          obtain ⟨rfl, rfl⟩ := List.cons.inj heq
          exact ih hrest

/-- The steps in front of a step are a run. -/
theorem history_front {front behind : List (Transition σ α)}
    (hrun : history step s actions = some (front ++ behind)) :
    ∃ actions', history step s actions' = some front := by
  induction front generalizing s actions with
  | nil => exact ⟨[], rfl⟩
  | cons t front ih =>
      cases actions with
      | nil => cases hrun
      | cons a actions =>
          obtain ⟨s', rest, hstep, hrest, heq⟩ := history_cons hrun
          obtain ⟨rfl, rfl⟩ := List.cons.inj heq
          obtain ⟨actions', hfront⟩ := ih hrest
          refine ⟨a :: actions', ?_⟩
          unfold history
          rw [hstep]
          dsimp only
          rw [hfront]
          rfl

/-! ## Potentials -/

/-- In the states of an invariant the potential pays for what the steps spend beyond what
they earn. -/
structure Funds (step : σ → α → Option σ) (I : σ → Prop) (potential : σ → Nat)
    (earned spent : Transition σ α → Nat) : Prop where
  keeps : ∀ s a s', I s → step s a = some s' → I s'
  pays : ∀ s a s', I s → step s a = some s' →
    potential s' + spent ⟨a, s, s'⟩ ≤ potential s + earned ⟨a, s, s'⟩

section Funds

variable {I : σ → Prop} {potential : σ → Nat} {earned spent : Transition σ α → Nat}

/-- The rule for runs. -/
theorem Funds.spent_le (h : Funds step I potential earned spent) (hI : I s)
    (hrun : history step s actions = some trace) :
    (trace.map spent).sum ≤ potential s + (trace.map earned).sum := by
  induction actions generalizing s trace with
  | nil =>
      cases hrun
      exact Nat.zero_le _
  | cons a actions ih =>
      obtain ⟨s', rest, hstep, hrest, rfl⟩ := history_cons hrun
      have hlater := ih (h.keeps s a s' hI hstep) hrest
      have hhere := h.pays s a s' hI hstep
      rw [List.map_cons, List.sum_cons, List.map_cons, List.sum_cons]
      omega

/-- The rule for a part of a run. -/
theorem Funds.spent_le_part (h : Funds step I potential earned spent) (hI : I s)
    {front part behind : List (Transition σ α)}
    (hrun : history step s actions = some (front ++ (part ++ behind))) :
    ∃ s', I s' ∧ (part.map spent).sum ≤ potential s' + (part.map earned).sum := by
  induction front generalizing s actions with
  | nil =>
      rw [List.nil_append] at hrun
      obtain ⟨actions', hpart⟩ := history_front hrun
      exact ⟨s, hI, h.spent_le hI hpart⟩
  | cons t front ih =>
      cases actions with
      | nil => cases hrun
      | cons a actions =>
          obtain ⟨s', rest, hstep, hrest, heq⟩ := history_cons hrun
          obtain ⟨rfl, rfl⟩ := List.cons.inj heq
          exact ih (h.keeps s a s' hI hstep) hrest

theorem sum_map_ite {κ : Type} (p : κ → Bool) (n : Nat) (l : List κ) :
    (l.map fun k => if p k then n else 0).sum = n * l.countP p := by
  induction l with
  | nil => rfl
  | cons k l ih =>
      rw [List.map_cons, List.sum_cons, ih, List.countP_cons]
      split
      · ring
      · ring

end Funds

section Counting

variable {I : σ → Prop} {potential : σ → Nat} {p q : Transition σ α → Bool}

/-- The steps of a kind behind a state are at most as many as its potential, if each of
them takes from it and no step adds to it. -/
theorem Funds.countP_le
    (h : Funds step I potential (fun _ => 0) fun t => if p t then 1 else 0) (hI : I s)
    (hrun : history step s actions = some trace) : trace.countP p ≤ potential s := by
  have hspent := h.spent_le hI hrun
  have hearned : (trace.map fun _ => 0).sum = 0 := by
    rw [List.map_const', List.sum_replicate_nat, Nat.mul_zero]
  rwa [sum_map_ite, Nat.one_mul, hearned, Nat.add_zero] at hspent

/-- Steps that cost `n` are paid for by steps that earn one each. -/
theorem Funds.mul_countP_le {n : Nat}
    (h : Funds step I potential (fun t => if q t then 1 else 0) fun t => if p t then n else 0)
    (hI : I s) (hrun : history step s actions = some trace) :
    n * trace.countP p ≤ potential s + trace.countP q := by
  have hspent := h.spent_le hI hrun
  rwa [sum_map_ite, sum_map_ite, Nat.one_mul] at hspent

end Counting

end IbmmqExporter.Foundation
