/-
  Foundation/History.lean --- runs of a machine, and what has happened in them.

  A machine is given by its step function; its environment chooses the actions.  The
  history of a run is the list of its steps, each with the states around it.

  WHAT THE FILE PROVIDES.  An invariant may mention whether a marked step has been
  taken before (`Tracks`).  Where the state shows it at certain steps, a condition on
  the states in front of these steps is one on the order of the steps of the run
  (`Tracks.forall_iff`).  It may also mention what the steps have gathered (`Gathers`),
  or depend on what is asked of the steps of a run (`KeptWhen`), and what is stable holds
  behind a step (`history_pairwise`, and `history_monotone` of a number).  A machine whose
  steps are steps of another one, or steps that this one does not see, has its runs
  (`history_refines`, `history_stutters`) and its invariants.
-/
import Mathlib.Data.List.Forall2
import Mathlib.Data.List.Pairwise

set_option autoImplicit false

namespace IbmmqExporter.Foundation

variable {σ α : Type}

/-! ## Histories -/

/-- A step of a run. -/
structure Transition (σ α : Type) where
  action : α
  before : σ
  after : σ

/-- The steps of the run with the given actions; `none` if one of them is not
possible. -/
def history (step : σ → α → Option σ) : σ → List α → Option (List (Transition σ α))
  | _, [] => some []
  | s, a :: actions =>
      match step s a with
      | none => none
      | some s' => (history step s' actions).map fun trace => ⟨a, s, s'⟩ :: trace

variable {step : σ → α → Option σ} {s : σ} {a : α} {actions : List α}
  {trace : List (Transition σ α)}

theorem history_cons (h : history step s (a :: actions) = some trace) :
    ∃ s' rest, step s a = some s' ∧ history step s' actions = some rest ∧
      trace = ⟨a, s, s'⟩ :: rest := by
  unfold history at h
  rcases hstep : step s a with _ | s'
  · rw [hstep] at h
    cases h
  · rw [hstep] at h
    obtain ⟨rest, hrest, rfl⟩ := Option.map_eq_some_iff.mp h
    exact ⟨s', rest, rfl, hrest, rfl⟩

theorem history_of_step {s' : σ} (hstep : step s a = some s')
    (hrun : history step s' actions = some trace) :
    history step s (a :: actions) = some (⟨a, s, s'⟩ :: trace) := by
  unfold history
  rw [hstep]
  dsimp only
  rw [hrun]
  rfl

theorem step_of_mem (hrun : history step s actions = some trace) {t : Transition σ α}
    (ht : t ∈ trace) : step t.before t.action = some t.after := by
  induction actions generalizing s trace with
  | nil =>
      cases hrun
      cases ht
  | cons a actions ih =>
      obtain ⟨s', rest, hstep, hrest, rfl⟩ := history_cons hrun
      rcases List.mem_cons.mp ht with rfl | ht
      · exact hstep
      · exact ih hrest ht

/-! ## Invariants with a past -/

/-- Every step keeps the invariant, whose proposition says whether a marked step has
been taken. -/
def Tracks (step : σ → α → Option σ) (marked : Transition σ α → Prop)
    (I : Prop → σ → Prop) : Prop :=
  ∀ p s a s', I p s → step s a = some s' → I (p ∨ marked ⟨a, s, s'⟩) s'

variable {marked : Transition σ α → Prop} {I : Prop → σ → Prop} {p : Prop}

/-- The invariant holds in front of every step of a run. -/
theorem Tracks.of_mem (h : Tracks step marked I) (hI : I p s)
    (hrun : history step s actions = some trace) {t : Transition σ α} (ht : t ∈ trace) :
    step t.before t.action = some t.after ∧ ∃ q, I q t.before := by
  induction actions generalizing s p trace with
  | nil =>
      cases hrun
      cases ht
  | cons a actions ih =>
      obtain ⟨s', rest, hstep, hrest, rfl⟩ := history_cons hrun
      rcases List.mem_cons.mp ht with rfl | ht
      · exact ⟨hstep, p, hI⟩
      · exact ih (h p s a s' hI hstep) hrest ht

/-- If the state in front of a step of use is good just as long as no marked step has
been taken, then it is good there throughout a run if and only if no step of use comes
behind a marked one. -/
theorem Tracks.forall_iff (h : Tracks step marked I) (use : Transition σ α → Prop)
    (good : σ → Prop)
    (hgood : ∀ p s a s', I p s → step s a = some s' → use ⟨a, s, s'⟩ → (good s ↔ ¬ p))
    (hI : I p s) (hrun : history step s actions = some trace) :
    (∀ t ∈ trace, use t → good t.before) ↔
      (p → ∀ t ∈ trace, ¬ use t) ∧ trace.Pairwise fun t u => marked t → ¬ use u := by
  induction actions generalizing s p trace with
  | nil =>
      cases hrun
      exact iff_of_true (fun _ ht => absurd ht List.not_mem_nil)
        ⟨fun _ _ ht => absurd ht List.not_mem_nil, List.Pairwise.nil⟩
  | cons a actions ih =>
      obtain ⟨s', rest, hstep, hrest, rfl⟩ := history_cons hrun
      have hhere := hgood p s a s' hI hstep
      rw [List.forall_mem_cons, ih (h p s a s' hI hstep) hrest, List.pairwise_cons]
      constructor
      · rintro ⟨huse, hlater, hpairs⟩
        refine ⟨fun hp => ?_, fun u hu hmarked => hlater (Or.inr hmarked) u hu, hpairs⟩
        exact List.forall_mem_cons.mpr
          ⟨fun hu => (hhere hu).mp (huse hu) hp, hlater (Or.inl hp)⟩
      · rintro ⟨hbefore, hmarked, hpairs⟩
        refine ⟨fun hu => (hhere hu).mpr fun hp => ?_, fun hpast u hu => ?_, hpairs⟩
        · exact hbefore hp _ List.mem_cons_self hu
        · rcases hpast with hp | hm
          · exact hbefore hp u (List.mem_cons_of_mem _ hu)
          · exact hmarked u hu hm

/-! ## Invariants with what has been gathered -/

section Gathering

variable {κ : Type}

/-- Every step keeps the invariant, which mentions what the steps have gathered. -/
def Gathers (step : σ → α → Option σ) (f : Transition σ α → List κ)
    (I : List κ → σ → Prop) : Prop :=
  ∀ l s a s', I l s → step s a = some s' → I (l ++ f ⟨a, s, s'⟩) s'

/-- In front of a step the invariant mentions what has been gathered up to it. -/
theorem Gathers.in_front {f : Transition σ α → List κ} {I : List κ → σ → Prop} {l : List κ}
    (h : Gathers step f I) (hI : I l s) {before behind : List (Transition σ α)}
    {t : Transition σ α} (hrun : history step s actions = some (before ++ t :: behind)) :
    step t.before t.action = some t.after ∧ I (l ++ before.flatMap f) t.before := by
  induction before generalizing s actions l with
  | nil =>
      cases actions with
      | nil => cases hrun
      | cons a actions =>
          obtain ⟨s', rest, hstep, -, heq⟩ := history_cons hrun
          obtain ⟨rfl, -⟩ := List.cons.inj heq
          rw [List.flatMap_nil, List.append_nil]
          exact ⟨hstep, hI⟩
  | cons u before ih =>
      cases actions with
      | nil => cases hrun
      | cons a actions =>
          obtain ⟨s', rest, hstep, hrest, heq⟩ := history_cons hrun
          obtain ⟨rfl, rfl⟩ := List.cons.inj heq
          rw [List.flatMap_cons, ← List.append_assoc]
          exact ih (h l s a s' hI hstep) hrest

/-- And behind the step. -/
theorem Gathers.of_append {f : Transition σ α → List κ} {I : List κ → σ → Prop} {l : List κ}
    (h : Gathers step f I) (hI : I l s) {before behind : List (Transition σ α)}
    {t : Transition σ α} (hrun : history step s actions = some (before ++ t :: behind)) :
    I (l ++ (before.flatMap f ++ f t)) t.after := by
  obtain ⟨hstep, hfront⟩ := h.in_front hI hrun
  rw [← List.append_assoc]
  exact h _ t.before t.action t.after hfront hstep

end Gathering

/-! ## Invariants under a condition -/

/-- Every step that meets the condition keeps the invariant. -/
def KeptWhen (step : σ → α → Option σ) (C : Transition σ α → Prop) (I : σ → Prop) : Prop :=
  ∀ s a s', I s → step s a = some s' → C ⟨a, s, s'⟩ → I s'

/-- In a run whose steps meet the condition the invariant holds around every step. -/
theorem KeptWhen.of_mem {C : Transition σ α → Prop} {I : σ → Prop} (h : KeptWhen step C I)
    (hI : I s) (hrun : history step s actions = some trace) (hC : ∀ t ∈ trace, C t)
    {t : Transition σ α} (ht : t ∈ trace) :
    step t.before t.action = some t.after ∧ I t.before ∧ I t.after := by
  induction actions generalizing s trace with
  | nil =>
      cases hrun
      cases ht
  | cons a actions ih =>
      obtain ⟨s', rest, hstep, hrest, rfl⟩ := history_cons hrun
      obtain ⟨hfirst, hlater⟩ := List.forall_mem_cons.mp hC
      have hI' := h s a s' hI hstep hfirst
      rcases List.mem_cons.mp ht with rfl | ht
      · exact ⟨hstep, hI, hI'⟩
      · exact ih hI' hrest hlater ht

/-- What no step ends holds in front of every later step. -/
theorem history_pairwise {P : σ → Prop} (hP : ∀ s a s', P s → step s a = some s' → P s')
    (hrun : history step s actions = some trace) :
    (P s → ∀ t ∈ trace, P t.before) ∧ trace.Pairwise fun t u => P t.after → P u.before := by
  induction actions generalizing s trace with
  | nil =>
      cases hrun
      exact ⟨fun _ _ ht => absurd ht List.not_mem_nil, List.Pairwise.nil⟩
  | cons a actions ih =>
      obtain ⟨s', rest, hstep, hrest, rfl⟩ := history_cons hrun
      obtain ⟨hlater, hpairs⟩ := ih hrest
      refine ⟨fun hs => List.forall_mem_cons.mpr ⟨hs, ?_⟩, List.pairwise_cons.mpr ⟨?_, hpairs⟩⟩
      · exact hlater (hP s a s' hs hstep)
      · exact fun u hu hs' => hlater hs' u hu

/-- A number that no step lowers is in front of every later step at least what it was
behind an earlier one. -/
theorem history_monotone {v : σ → Nat} (hv : ∀ s a s', step s a = some s' → v s ≤ v s')
    (hrun : history step s actions = some trace) :
    (∀ t ∈ trace, v s ≤ v t.before) ∧ trace.Pairwise fun t u => v t.after ≤ v u.before := by
  induction actions generalizing s trace with
  | nil =>
      cases hrun
      exact ⟨fun _ ht => absurd ht List.not_mem_nil, List.Pairwise.nil⟩
  | cons a actions ih =>
      obtain ⟨s', rest, hstep, hrest, rfl⟩ := history_cons hrun
      obtain ⟨hlater, hpairs⟩ := ih hrest
      have hle := hv s a s' hstep
      refine ⟨List.forall_mem_cons.mpr ⟨Nat.le_refl _, ?_⟩, List.pairwise_cons.mpr ⟨?_, hpairs⟩⟩
      · exact fun u hu => Nat.le_trans hle (hlater u hu)
      · exact fun u hu => hlater u hu

/-! ## Refinement -/

section Refinement

variable {τ β : Type} {step' : τ → β → Option τ} {abs : σ → τ} {as : α → β → Prop}

/-- Every step is one of another machine, whose actions are those that the relation
allows. -/
def Refines (step : σ → α → Option σ) (step' : τ → β → Option τ) (abs : σ → τ)
    (as : α → β → Prop) : Prop :=
  ∀ s a s', step s a = some s' → ∃ b, as a b ∧ step' (abs s) b = some (abs s')

/-- The step of the other machine. -/
structure Transition.Shadows (abs : σ → τ) (as : α → β → Prop) (t : Transition σ α)
    (u : Transition τ β) : Prop where
  action : as t.action u.action
  before : u.before = abs t.before
  after : u.after = abs t.after

/-- The runs are runs of the other machine. -/
theorem history_refines (h : Refines step step' abs as)
    (hrun : history step s actions = some trace) :
    ∃ actions' trace', history step' (abs s) actions' = some trace' ∧
      List.Forall₂ (Transition.Shadows abs as) trace trace' := by
  induction actions generalizing s trace with
  | nil =>
      cases hrun
      exact ⟨[], [], rfl, .nil⟩
  | cons a actions ih =>
      obtain ⟨s', rest, hstep, hrest, rfl⟩ := history_cons hrun
      obtain ⟨b, hab, hstep'⟩ := h s a s' hstep
      obtain ⟨actions', trace', hrun', hshadows⟩ := ih hrest
      exact ⟨b :: actions', ⟨b, abs s, abs s'⟩ :: trace', history_of_step hstep' hrun',
        .cons ⟨hab, rfl, rfl⟩ hshadows⟩

/-- What the other machine keeps is kept. -/
theorem KeptWhen.refines {C : Transition σ α → Prop} {C' : Transition τ β → Prop}
    {I : τ → Prop} (hkept : KeptWhen step' C' I) (h : Refines step step' abs as)
    (hC : ∀ t u, Transition.Shadows abs as t u → C t → C' u) :
    KeptWhen step C fun s => I (abs s) := by
  intro s a s' hI hstep hcond
  obtain ⟨b, hab, hstep'⟩ := h s a s' hstep
  exact hkept (abs s) b (abs s') hI hstep' (hC ⟨a, s, s'⟩ _ ⟨hab, rfl, rfl⟩ hcond)

/-! ### Steps that the other machine does not see -/

/-- A step is the step of the other machine that it is made of, or leaves its state. -/
def Stutters (step : σ → α → Option σ) (step' : τ → β → Option τ) (abs : σ → τ)
    (made : σ → α → Option β) : Prop :=
  ∀ s a s', step s a = some s' →
    (made s a).elim (abs s' = abs s) fun b => step' (abs s) b = some (abs s')

/-- The step of the other machine, if it sees one. -/
def Transition.seen (abs : σ → τ) (made : σ → α → Option β) (t : Transition σ α) :
    Option (Transition τ β) :=
  (made t.before t.action).map fun b => ⟨b, abs t.before, abs t.after⟩

variable {made : σ → α → Option β}

/-- The steps that are seen are a run of the other machine. -/
theorem history_stutters (h : Stutters step step' abs made)
    (hrun : history step s actions = some trace) :
    history step' (abs s) (trace.filterMap fun t => made t.before t.action) =
      some (trace.filterMap (Transition.seen abs made)) := by
  induction actions generalizing s trace with
  | nil =>
      cases hrun
      rfl
  | cons a actions ih =>
      obtain ⟨s', rest, hstep, hrest, rfl⟩ := history_cons hrun
      have hseen := h s a s' hstep
      have hih := ih hrest
      rw [List.filterMap_cons, List.filterMap_cons]
      unfold Transition.seen
      dsimp only
      cases hmade : made s a with
      | none =>
          rw [hmade] at hseen
          rw [show abs s = abs s' from hseen.symm]
          exact hih
      | some b =>
          rw [hmade] at hseen
          exact history_of_step hseen hih

/-- What the other machine keeps is kept. -/
theorem KeptWhen.stutters {I : τ → Prop} (hkept : KeptWhen step' (fun _ => True) I)
    (h : Stutters step step' abs made) : KeptWhen step (fun _ => True) fun s => I (abs s) := by
  intro s a s' hI hstep _
  have hseen := h s a s' hstep
  cases hmade : made s a with
  | none =>
      rw [hmade] at hseen
      rw [show abs s' = abs s from hseen]
      exact hI
  | some b =>
      rw [hmade] at hseen
      exact hkept (abs s) b (abs s') hI hseen trivial

end Refinement

end IbmmqExporter.Foundation
