/-
  Foundation/Course.lean --- how far a program gets.

  A preorder on the states says where a program may end that begins in a state.  It
  speaks of the runs that return or raise an exception, and not of the others.

  WHAT THE FILE PROVIDES.  The rules for the constructs of `Effect`, with those for a
  component, and two preorders: that of the programs that keep the invariants of a family,
and that of the programs that append events of one kind to a log.
-/
import Mathlib.Order.Defs.Unbundled
import IbmmqExporter.Foundation.Effect

set_option autoImplicit false

namespace IbmmqExporter.Foundation.Effect

variable {σ τ ε α β : Type} {R : σ → σ → Prop}

/-- Where the program returns or raises an exception, it has kept to the relation. -/
def Within (R : σ → σ → Prop) (c : Effect σ ε α) : Prop :=
  ∀ s, wp c (fun _ => R s) (fun _ => R s) s

/-! ## Rules -/

section Rules

theorem Within.mono {R' : σ → σ → Prop} {c : Effect σ ε α} (hc : Within R c)
    (h : ∀ s s', R s s' → R' s s') : Within R' c := by
  intro s
  exact wp_mono (hc s) (fun _ => h s) fun _ => h s

/-- Where a run that returns has ended. -/
theorem Within.of_ok {c : Effect σ ε α} (hc : Within R c) {s s' : σ} {a : α}
    (h : c s = (.ok a, s')) : R s s' := by
  have hwp := of_wp_ok (hc s) h
  exact hwp

theorem within_of_all {c : Effect σ ε α} (h : ∀ s, R s (c s).2) : Within R c :=
  fun s => wp_of_state (h s)

theorem within_modify {f : σ → σ} (h : ∀ s, R s (f s)) :
    Within R (modify f : Effect σ ε Unit) := h

/-- A program of a component, if what it may do there may be done. -/
theorem Within.zoom {R' : τ → τ → Prop} {get : τ → σ} {set : σ → τ → τ} {c : Effect σ ε α}
    (hc : Within R c) (h : ∀ t s, R (get t) s → R' t (set s t)) :
    Within R' (Effect.zoom get set c) := by
  intro t
  rw [wp_zoom]
  exact wp_mono (hc (get t)) (fun _ => h t) fun _ => h t

theorem within_ite {p : Prop} [Decidable p] {c d : Effect σ ε α} (hc : Within R c)
    (hd : Within R d) : Within R (if p then c else d) := by
  split
  · exact hc
  · exact hd

theorem Within.bind [IsTrans σ R] {c : Effect σ ε α} {d : α → Effect σ ε β} (hc : Within R c)
    (hd : ∀ a, Within R (d a)) : Within R (c >>= d) := by
  intro s
  rw [wp_bind]
  refine wp_mono (hc s) (fun a s' hs' => ?_) fun _ _ h => h
  exact wp_mono (hd a s') (fun _ _ => trans_of R hs') fun _ _ => trans_of R hs'

theorem Within.tryCatch [IsTrans σ R] {c : Effect σ ε α} {h : ε → Effect σ ε α}
    (hc : Within R c) (hh : ∀ e, Within R (h e)) : Within R (Effect.tryCatch c h) := by
  intro s
  rw [wp_tryCatch]
  refine wp_mono (hc s) (fun _ _ h => h) fun e s' hs' => ?_
  exact wp_mono (hh e s') (fun _ _ => trans_of R hs') fun _ _ => trans_of R hs'

variable [Std.Refl R]

theorem within_pure (a : α) : Within R (pure a : Effect σ ε α) := fun s => refl_of R s

theorem within_gets (f : σ → α) : Within R (gets f : Effect σ ε α) := fun s => refl_of R s

theorem within_lift (x : Outcome ε α) : Within R (lift x : Effect σ ε α) :=
  within_of_all fun s => refl_of R s

theorem within_raise (e : ε) : Within R (raise e : Effect σ ε α) := within_lift _

theorem within_when {p : Prop} [Decidable p] {c : Effect σ ε Unit} (hc : Within R c) :
    Within R (when p c) := within_ite hc (within_pure ())

variable [IsTrans σ R]

theorem Within.map {c : Effect σ ε α} (hc : Within R c) (f : α → β) : Within R (f <$> c) := by
  rw [map_eq_pure_bind]
  exact hc.bind fun a => within_pure (f a)

theorem within_forEach {l : List α} {f : α → Effect σ ε Unit} (hf : ∀ a ∈ l, Within R (f a)) :
    Within R (forEach l f) := by
  induction l with
  | nil => exact within_pure ()
  | cons a l ih =>
      refine (hf a List.mem_cons_self).bind fun _ => ?_
      exact ih fun b hb => hf b (List.mem_cons_of_mem a hb)

end Rules

/-! ## Components -/

section Components

variable {get : τ → σ} {set : σ → τ → τ} {R : τ → τ → Prop}

/-- What a component may do, so that the whole keeps to a relation. -/
def Part (get : τ → σ) (set : σ → τ → τ) (R : τ → τ → Prop) (s s' : σ) : Prop :=
  ∀ t, get t = s → R t (set s' t)

theorem part_refl [Std.Refl R] (hset : ∀ t, set (get t) t = t) : Std.Refl (Part get set R) where
  refl := by
    rintro _ t rfl
    rw [hset]
    exact refl_of R t

theorem part_trans [IsTrans τ R] (hget : ∀ s t, get (set s t) = s)
    (hset : ∀ s s' t, set s' (set s t) = set s' t) : IsTrans σ (Part get set R) where
  trans := by
    intro s s' s'' h h' t ht
    have hrest := h' (set s' t) (hget s' t)
    rw [hset] at hrest
    exact trans_of R (h t ht) hrest

theorem Within.part {c : Effect σ ε α} (hc : Within (Part get set R) c) :
    Within R (Effect.zoom get set c) := hc.zoom fun t _ h => h t rfl

end Components

/-! ## Parts that are left alone -/

section Same

variable {γ : Type} {f : σ → γ}

/-- A part of the state is as it was. -/
def Same (f : σ → γ) (s s' : σ) : Prop := f s' = f s

instance : Std.Refl (Same f) := ⟨fun _ => rfl⟩

instance : IsTrans σ (Same f) := ⟨fun _ _ _ h h' => h'.trans h⟩

theorem Preserves.within {c : Effect σ ε α} (hc : Preserves f c) : Within (Same f) c :=
  within_of_all hc

end Same

/-! ## Invariants that are kept -/

section Maintains

variable {ι : Type} {I : ι → σ → Prop}

/-- What has held of a family of invariants still holds. -/
def Maintains (I : ι → σ → Prop) (s s' : σ) : Prop := ∀ i, I i s → I i s'

instance : Std.Refl (Maintains I) := ⟨fun _ _ h => h⟩

instance : IsTrans σ (Maintains I) := ⟨fun _ _ _ h h' i hi => h' i (h i hi)⟩

theorem within_maintains {c : Effect σ ε α}
    (hc : ∀ i s, I i s → wp c (fun _ => I i) (fun _ => I i) s) : Within (Maintains I) c := by
  intro s
  unfold wp
  rcases hrun : c s with ⟨outcome, s'⟩
  cases outcome with
  | ok a =>
      intro i hi
      have hwp := of_wp_ok (hc i s hi) hrun
      exact hwp
  | raised e =>
      intro i hi
      have hwp := of_wp_raised (hc i s hi) hrun
      exact hwp
  | undefined => trivial
  | pending => trivial

end Maintains

/-! ## Logs -/

section Logs

variable {κ : Type} {log : σ → List κ} {P : κ → Prop}

/-- The log has grown by events of one kind. -/
def Appends (log : σ → List κ) (P : κ → Prop) (s s' : σ) : Prop :=
  ∃ new, log s' = log s ++ new ∧ ∀ e ∈ new, P e

instance : Std.Refl (Appends log P) where
  refl _ := ⟨[], (List.append_nil _).symm, fun _ he => absurd he List.not_mem_nil⟩

instance : IsTrans σ (Appends log P) where
  trans := by
    rintro s s' s'' ⟨new, hlog, hnew⟩ ⟨new', hlog', hnew'⟩
    refine ⟨new ++ new', by rw [hlog', hlog, List.append_assoc], fun e he => ?_⟩
    rcases List.mem_append.mp he with he | he
    · exact hnew e he
    · exact hnew' e he

end Logs

end IbmmqExporter.Foundation.Effect
