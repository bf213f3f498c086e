/-
  Foundation/Effect.lean --- imperative programs on a state, with exceptions.

  `Effect σ ε α` is a program on a state `σ` that comes to an `Outcome`; the state
  it leaves behind is kept whatever the outcome, as it is when an exception unwinds
  the frames of a call but not the objects they have changed.

  WHAT THE FILE PROVIDES.  `wp` is the weakest precondition for partial
  correctness, with one postcondition for returns and one for exceptions; its rules
  are equations, so that a program is taken apart by rewriting.  `Preserves` says
  that a program leaves a part of the state as it is, whatever its outcome.
-/
import IbmmqExporter.Foundation.Outcome

set_option autoImplicit false

namespace IbmmqExporter.Foundation

/-- A program on a state `σ` that may raise an `ε` and returns an `α`. -/
def Effect (σ ε α : Type) : Type := σ → Outcome ε α × σ

namespace Effect

variable {σ τ ε α β γ : Type}

/-! ## Programs -/

/-- Continue after a return; every other outcome is the caller's too. -/
protected def bind (c : Effect σ ε α) (f : α → Effect σ ε β) : Effect σ ε β := fun s =>
  match c s with
  | (.ok a, s') => f a s'
  | (.raised e, s') => (.raised e, s')
  | (.undefined, s') => (.undefined, s')
  | (.pending, s') => (.pending, s')

instance : Monad (Effect σ ε) where
  pure a := fun s => (.ok a, s)
  bind := Effect.bind

/-- Read a part of the state. -/
def gets (f : σ → α) : Effect σ ε α := fun s => (.ok (f s), s)

/-- Change the state. -/
def modify (f : σ → σ) : Effect σ ε Unit := fun s => (.ok (), f s)

/-- A program that does not use the state. -/
def lift (x : Outcome ε α) : Effect σ ε α := fun s => (x, s)

/-- `throw e`. -/
def raise (e : ε) : Effect σ ε α := lift (.raised e)

/-- `try { c } catch (e) { h e }`. -/
def tryCatch (c : Effect σ ε α) (h : ε → Effect σ ε α) : Effect σ ε α := fun s =>
  match c s with
  | (.ok a, s') => (.ok a, s')
  | (.raised e, s') => h e s'
  | (.undefined, s') => (.undefined, s')
  | (.pending, s') => (.pending, s')

/-- Run a program of a component on the component's part of the state. -/
def zoom (get : τ → σ) (set : σ → τ → τ) (c : Effect σ ε α) : Effect τ ε α := fun t =>
  ((c (get t)).1, set (c (get t)).2 t)

/-- `if (p) { c }`. -/
def when (p : Prop) [Decidable p] (c : Effect σ ε Unit) : Effect σ ε Unit :=
  if p then c else pure ()

/-- Run a program for every element of a list. -/
def forEach (l : List α) (f : α → Effect σ ε Unit) : Effect σ ε Unit :=
  match l with
  | [] => pure ()
  | a :: l => do
      f a
      forEach l f

@[simp] theorem pure_apply (a : α) (s : σ) : (pure a : Effect σ ε α) s = (.ok a, s) := rfl

@[simp] theorem gets_apply (f : σ → α) (s : σ) :
    (gets f : Effect σ ε α) s = (.ok (f s), s) := rfl

@[simp] theorem modify_apply (f : σ → σ) (s : σ) :
    (modify f : Effect σ ε Unit) s = (.ok (), f s) := rfl

@[simp] theorem lift_apply (x : Outcome ε α) (s : σ) :
    (lift x : Effect σ ε α) s = (x, s) := rfl

@[simp] theorem raise_apply (e : ε) (s : σ) :
    (raise e : Effect σ ε α) s = (.raised e, s) := rfl

@[simp] theorem zoom_apply (get : τ → σ) (set : σ → τ → τ) (c : Effect σ ε α) (t : τ) :
    zoom get set c t = ((c (get t)).1, set (c (get t)).2 t) := rfl

theorem bind_apply (c : Effect σ ε α) (f : α → Effect σ ε β) (s : σ) :
    (c >>= f) s =
      match c s with
      | (.ok a, s') => f a s'
      | (.raised e, s') => (.raised e, s')
      | (.undefined, s') => (.undefined, s')
      | (.pending, s') => (.pending, s') := rfl

/-- A program whose first part returns goes on with its second. -/
theorem bind_of_ok {c : Effect σ ε α} {f : α → Effect σ ε β} {s s' : σ} {a : α}
    (h : c s = (.ok a, s')) : (c >>= f) s = f a s' := by
  rw [bind_apply, h]

theorem bind_of_raised {c : Effect σ ε α} {f : α → Effect σ ε β} {s s' : σ} {e : ε}
    (h : c s = (.raised e, s')) : (c >>= f) s = (.raised e, s') := by
  rw [bind_apply, h]

theorem bind_of_undefined {c : Effect σ ε α} {f : α → Effect σ ε β} {s s' : σ}
    (h : c s = (.undefined, s')) : (c >>= f) s = (.undefined, s') := by
  rw [bind_apply, h]

theorem bind_of_pending {c : Effect σ ε α} {f : α → Effect σ ε β} {s s' : σ}
    (h : c s = (.pending, s')) : (c >>= f) s = (.pending, s') := by
  rw [bind_apply, h]

theorem tryCatch_of_ok {c : Effect σ ε α} {h : ε → Effect σ ε α} {s s' : σ} {a : α}
    (hc : c s = (.ok a, s')) : tryCatch c h s = (.ok a, s') := by
  unfold tryCatch
  rw [hc]

theorem tryCatch_of_raised {c : Effect σ ε α} {h : ε → Effect σ ε α} {s s' : σ} {e : ε}
    (hc : c s = (.raised e, s')) : tryCatch c h s = h e s' := by
  unfold tryCatch
  rw [hc]

theorem tryCatch_of_undefined {c : Effect σ ε α} {h : ε → Effect σ ε α} {s s' : σ}
    (hc : c s = (.undefined, s')) : tryCatch c h s = (.undefined, s') := by
  unfold tryCatch
  rw [hc]

instance : LawfulMonad (Effect σ ε) :=
  LawfulMonad.mk' _
    (by
      intro α x
      funext s
      show (x >>= fun a => pure a) s = x s
      rw [bind_apply]
      rcases x s with ⟨o, s'⟩
      cases o <;> rfl)
    (by intro _ _ a f; rfl)
    (by
      intro α β γ x f g
      funext s
      simp only [bind_apply]
      rcases x s with ⟨o, s'⟩
      cases o <;> rfl)

theorem map_of_ok {c : Effect σ ε α} {s s' : σ} {a : α} (f : α → β)
    (h : c s = (.ok a, s')) : (f <$> c) s = (.ok (f a), s') := by
  rw [← bind_pure_comp]
  exact bind_of_ok h

theorem forEach_cons (a : α) (l : List α) (f : α → Effect σ ε Unit) :
    forEach (a :: l) f = f a >>= fun _ => forEach l f := rfl

theorem when_pos {p : Prop} [Decidable p] (h : p) (c : Effect σ ε Unit) : when p c = c :=
  if_pos h

theorem when_neg {p : Prop} [Decidable p] (h : ¬ p) (c : Effect σ ε Unit) :
    when p c = pure () := if_neg h

theorem forEach_append (l l' : List α) (f : α → Effect σ ε Unit) :
    forEach (l ++ l') f = forEach l f >>= fun _ => forEach l' f := by
  induction l with
  | nil => exact (pure_bind _ _).symm
  | cons a l ih => rw [List.cons_append, forEach, forEach, ih, bind_assoc]

theorem forEach_map (l : List α) (g : α → β) (f : β → Effect σ ε Unit) :
    forEach (l.map g) f = forEach l fun a => f (g a) := by
  induction l with
  | nil => rfl
  | cons a l ih => rw [List.map_cons, forEach, forEach, ih]

/-- A component's program one part after the other. -/
theorem zoom_bind {get : τ → σ} {set : σ → τ → τ} (hget : ∀ s t, get (set s t) = s)
    (hset : ∀ s s' t, set s' (set s t) = set s' t) (c : Effect σ ε α) (f : α → Effect σ ε β) :
    zoom get set (c >>= f) = zoom get set c >>= fun a => zoom get set (f a) := by
  funext t
  rw [bind_apply, zoom_apply, zoom_apply, bind_apply]
  rcases c (get t) with ⟨outcome, s⟩
  cases outcome with
  | ok a =>
      dsimp only
      rw [zoom_apply, hget, hset]
  | raised e => rfl
  | undefined => rfl
  | pending => rfl

/-! ## Weakest preconditions -/

/-- If the program returns it establishes `Q`, and if it raises an exception `E`. -/
def wp (c : Effect σ ε α) (Q : α → σ → Prop) (E : ε → σ → Prop) (s : σ) : Prop :=
  match c s with
  | (.ok a, s') => Q a s'
  | (.raised e, s') => E e s'
  | (.undefined, _) => True
  | (.pending, _) => True

variable {Q : α → σ → Prop} {E : ε → σ → Prop} {s : σ}

@[simp] theorem wp_pure (a : α) : wp (pure a : Effect σ ε α) Q E s ↔ Q a s := Iff.rfl

@[simp] theorem wp_gets (f : σ → α) : wp (gets f) Q E s ↔ Q (f s) s := Iff.rfl

@[simp] theorem wp_modify (f : σ → σ) {Q : Unit → σ → Prop} :
    wp (modify f) Q E s ↔ Q () (f s) := Iff.rfl

@[simp] theorem wp_raise (e : ε) : wp (raise e : Effect σ ε α) Q E s ↔ E e s := Iff.rfl

@[simp] theorem wp_bind (c : Effect σ ε α) (f : α → Effect σ ε β) {Q : β → σ → Prop} :
    wp (c >>= f) Q E s ↔ wp c (fun a => wp (f a) Q E) E s := by
  unfold wp
  rw [bind_apply]
  rcases c s with ⟨o, s'⟩
  cases o <;> rfl

@[simp] theorem wp_map (f : α → β) (c : Effect σ ε α) {Q : β → σ → Prop} :
    wp (f <$> c) Q E s ↔ wp c (fun a => Q (f a)) E s := by
  rw [map_eq_pure_bind, wp_bind]
  rfl

/-- When a mapped program returns. -/
theorem map_fst_eq_ok {f : α → β} {c : Effect σ ε α} {b : β} :
    ((f <$> c) s).1 = .ok b ↔ ∃ a, (c s).1 = .ok a ∧ f a = b := by
  rw [← bind_pure_comp, bind_apply]
  rcases c s with ⟨outcome, s'⟩
  cases outcome with
  | ok a =>
      constructor
      · exact fun h => ⟨a, rfl, Outcome.ok.inj h⟩
      · rintro ⟨a', ha, rfl⟩
        exact congrArg (fun a => Outcome.ok (f a)) (Outcome.ok.inj ha)
  | raised e => exact iff_of_false nofun nofun
  | undefined => exact iff_of_false nofun nofun
  | pending => exact iff_of_false nofun nofun

@[simp] theorem wp_tryCatch (c : Effect σ ε α) (h : ε → Effect σ ε α) :
    wp (tryCatch c h) Q E s ↔ wp c Q (fun e => wp (h e) Q E) s := by
  unfold wp tryCatch
  rcases c s with ⟨o, s'⟩
  cases o <;> rfl

@[simp] theorem wp_ite (p : Prop) [Decidable p] (c d : Effect σ ε α) :
    wp (if p then c else d) Q E s ↔ if p then wp c Q E s else wp d Q E s := by
  split <;> rfl

@[simp] theorem wp_when (p : Prop) [Decidable p] (c : Effect σ ε Unit)
    {Q : Unit → σ → Prop} :
    wp (when p c) Q E s ↔ if p then wp c Q E s else Q () s := by
  unfold when
  split <;> rfl

theorem wp_lift (x : Outcome ε α) :
    wp (lift x) Q E s ↔ (∀ a, x = .ok a → Q a s) ∧ ∀ e, x = .raised e → E e s := by
  cases x <;> simp [wp, lift]

/-- A program of a component meets what it meets there. -/
theorem wp_zoom {get : τ → σ} {set : σ → τ → τ} {c : Effect σ ε α} {t : τ}
    {Q : α → τ → Prop} {E : ε → τ → Prop} :
    wp (zoom get set c) Q E t ↔
      wp c (fun a s => Q a (set s t)) (fun e s => E e (set s t)) (get t) := by
  unfold wp
  rw [zoom_apply]
  rcases c (get t) with ⟨o, s'⟩
  cases o <;> rfl

/-- A postcondition on the state alone. -/
theorem wp_of_state {c : Effect σ ε α} {R : σ → Prop} (h : R (c s).2) :
    wp c (fun _ => R) (fun _ => R) s := by
  unfold wp
  rcases hc : c s with ⟨o, s'⟩
  rw [hc] at h
  cases o with
  | ok a => exact h
  | raised e => exact h
  | undefined => trivial
  | pending => trivial

/-- A program ends as it is run. -/
theorem wp_run (c : Effect σ ε α) (s : σ) :
    wp c (fun a s' => c s = (.ok a, s')) (fun e s' => c s = (.raised e, s')) s := by
  unfold wp
  rcases c s with ⟨outcome, s'⟩
  cases outcome <;> trivial

theorem wp_mono {c : Effect σ ε α} {Q' : α → σ → Prop} {E' : ε → σ → Prop}
    (h : wp c Q E s) (hQ : ∀ a s', Q a s' → Q' a s') (hE : ∀ e s', E e s' → E' e s') :
    wp c Q' E' s := by
  unfold wp at *
  rcases hc : c s with ⟨o, s'⟩
  rw [hc] at h
  cases o with
  | ok a => exact hQ a s' h
  | raised e => exact hE e s' h
  | undefined => trivial
  | pending => trivial

/-- Two facts about one program. -/
theorem wp_and {c : Effect σ ε α} {Q' : α → σ → Prop} {E' : ε → σ → Prop} (h : wp c Q E s)
    (h' : wp c Q' E' s) :
    wp c (fun a s' => Q a s' ∧ Q' a s') (fun e s' => E e s' ∧ E' e s') s := by
  unfold wp at h h' ⊢
  rcases hc : c s with ⟨o, s'⟩
  rw [hc] at h h'
  cases o with
  | ok a => exact ⟨h, h'⟩
  | raised e => exact ⟨h, h'⟩
  | undefined => trivial
  | pending => trivial

/-- The rule of sequence. -/
theorem wp_seq {c : Effect σ ε α} {d : α → Effect σ ε β} {R : β → σ → Prop}
    (hc : wp c Q E s) (hd : ∀ a s', Q a s' → wp (d a) R E s') : wp (c >>= d) R E s := by
  rw [wp_bind]
  exact wp_mono hc hd fun e s' he => he

/-- A program whose first part returns meets what its second part meets. -/
theorem wp_bind_of_ok {c : Effect σ ε α} {d : α → Effect σ ε β} {R : β → σ → Prop}
    {s' : σ} {a : α} (hc : c s = (.ok a, s')) (hd : wp (d a) R E s') :
    wp (c >>= d) R E s := by
  unfold wp at *
  rwa [bind_of_ok hc]

/-- What a postcondition says of a return. -/
theorem of_wp_ok {c : Effect σ ε α} {s' : σ} {a : α} (h : wp c Q E s)
    (hc : c s = (.ok a, s')) : Q a s' := by
  unfold wp at h
  rwa [hc] at h

/-- What a postcondition says of an exception. -/
theorem of_wp_raised {c : Effect σ ε α} {s' : σ} {e : ε} (h : wp c Q E s)
    (hc : c s = (.raised e, s')) : E e s' := by
  unfold wp at h
  rwa [hc] at h

/-- The loop rule: the invariant speaks of what is left of the list. -/
theorem wp_forEach {l : List α} {f : α → Effect σ ε Unit} {I : List α → σ → Prop}
    {E : ε → σ → Prop} (hI : I l s)
    (hf : ∀ a l s, I (a :: l) s → wp (f a) (fun _ => I l) E s) :
    wp (forEach l f) (fun _ => I []) E s := by
  induction l generalizing s with
  | nil => exact hI
  | cons a l ih =>
      unfold forEach
      rw [wp_bind]
      refine wp_mono (hf a l s hI) ?_ fun e s' he => he
      intro _ s' hs'
      exact ih hs'

/-! ## What a program leaves alone -/

/-- The program leaves the part `f` of the state as it is, whatever its outcome. -/
def Preserves (f : σ → γ) (c : Effect σ ε α) : Prop := ∀ s, f (c s).2 = f s

section Preserves

variable {f : σ → γ}

theorem preserves_pure (a : α) : Preserves f (pure a : Effect σ ε α) := fun _ => rfl

theorem preserves_gets (g : σ → α) : Preserves f (gets g : Effect σ ε α) := fun _ => rfl

theorem preserves_lift (x : Outcome ε α) : Preserves f (lift x : Effect σ ε α) :=
  fun _ => rfl

theorem preserves_raise (e : ε) : Preserves f (raise e : Effect σ ε α) := fun _ => rfl

theorem preserves_modify {g : σ → σ} (h : ∀ s, f (g s) = f s) :
    Preserves f (modify g : Effect σ ε Unit) := h

theorem Preserves.bind {c : Effect σ ε α} {d : α → Effect σ ε β} (hc : Preserves f c)
    (hd : ∀ a, Preserves f (d a)) : Preserves f (c >>= d) := by
  intro s
  have h := hc s
  rw [bind_apply]
  rcases hs : c s with ⟨o, s'⟩
  rw [hs] at h
  cases o with
  | ok a => exact (hd a s').trans h
  | raised e => exact h
  | undefined => exact h
  | pending => exact h

theorem Preserves.tryCatch {c : Effect σ ε α} {h : ε → Effect σ ε α}
    (hc : Preserves f c) (hh : ∀ e, Preserves f (h e)) :
    Preserves f (Effect.tryCatch c h) := by
  intro s
  have hcs := hc s
  unfold Effect.tryCatch
  rcases hs : c s with ⟨o, s'⟩
  rw [hs] at hcs
  cases o with
  | ok a => exact hcs
  | raised e => exact (hh e s').trans hcs
  | undefined => exact hcs
  | pending => exact hcs

theorem Preserves.comp {δ : Type} {c : Effect σ ε α} (hc : Preserves f c) (g : γ → δ) :
    Preserves (fun s => g (f s)) c := fun s => congrArg g (hc s)

theorem Preserves.map {c : Effect σ ε α} (hc : Preserves f c) (g : α → β) :
    Preserves f (g <$> c) := by
  rw [map_eq_pure_bind]
  exact hc.bind fun a => preserves_pure (g a)

theorem preserves_ite {p : Prop} [Decidable p] {c d : Effect σ ε α} (hc : Preserves f c)
    (hd : Preserves f d) : Preserves f (if p then c else d) := by
  split
  · exact hc
  · exact hd

/-- A part of a component that a program of the component leaves alone. -/
theorem Preserves.zoom {get : τ → σ} {set : σ → τ → τ} {c : Effect σ ε α}
    (hset : ∀ s t, get (set s t) = s) (hc : Preserves f c) :
    Preserves (fun t => f (get t)) (Effect.zoom get set c) := by
  intro t
  rw [zoom_apply]
  exact (congrArg f (hset _ t)).trans (hc (get t))

theorem preserves_when {p : Prop} [Decidable p] {c : Effect σ ε Unit}
    (hc : Preserves f c) : Preserves f (when p c) := by
  unfold when
  split
  · exact hc
  · exact preserves_pure ()

theorem preserves_forEach {l : List α} {g : α → Effect σ ε Unit}
    (hg : ∀ a ∈ l, Preserves f (g a)) : Preserves f (forEach l g) := by
  induction l with
  | nil => exact preserves_pure ()
  | cons a l ih =>
      refine (hg a List.mem_cons_self).bind ?_
      intro _
      exact ih fun b hb => hg b (List.mem_cons_of_mem a hb)

end Preserves

/-! ## Programs without exceptions -/

/-- The program does not end with an exception. -/
def NeverRaises (c : Effect σ ε α) : Prop := ∀ s e, (c s).1 ≠ .raised e

theorem neverRaises_pure (a : α) : NeverRaises (pure a : Effect σ ε α) := fun _ _ => nofun

theorem neverRaises_gets (f : σ → α) : NeverRaises (gets f : Effect σ ε α) := fun _ _ => nofun

theorem neverRaises_modify (f : σ → σ) : NeverRaises (modify f : Effect σ ε Unit) :=
  fun _ _ => nofun

theorem neverRaises_lift {x : Outcome ε α} (h : ∀ e, x ≠ .raised e) :
    NeverRaises (lift x : Effect σ ε α) := fun _ => h

theorem NeverRaises.bind {c : Effect σ ε α} {d : α → Effect σ ε β} (hc : NeverRaises c)
    (hd : ∀ a, NeverRaises (d a)) : NeverRaises (c >>= d) := by
  intro s e
  have h := hc s
  rw [bind_apply]
  rcases hs : c s with ⟨o, s'⟩
  rw [hs] at h
  cases o with
  | ok a => exact hd a s' e
  | raised e' => exact absurd rfl (h e')
  | undefined => exact nofun
  | pending => exact nofun

theorem neverRaises_tryCatch (c : Effect σ ε α) {h : ε → Effect σ ε α}
    (hh : ∀ e, NeverRaises (h e)) : NeverRaises (Effect.tryCatch c h) := by
  intro s e
  unfold Effect.tryCatch
  rcases c s with ⟨o, s'⟩
  cases o with
  | ok a => exact nofun
  | raised e' => exact hh e' s' e
  | undefined => exact nofun
  | pending => exact nofun

theorem neverRaises_ite {p : Prop} [Decidable p] {c d : Effect σ ε α} (hc : NeverRaises c)
    (hd : NeverRaises d) : NeverRaises (if p then c else d) := by
  split
  · exact hc
  · exact hd

theorem neverRaises_when {p : Prop} [Decidable p] {c : Effect σ ε Unit}
    (hc : NeverRaises c) : NeverRaises (when p c) := neverRaises_ite hc (neverRaises_pure ())

theorem neverRaises_forEach {l : List α} {g : α → Effect σ ε Unit}
    (hg : ∀ a ∈ l, NeverRaises (g a)) : NeverRaises (forEach l g) := by
  induction l with
  | nil => exact neverRaises_pure ()
  | cons a l ih =>
      refine (hg a List.mem_cons_self).bind fun _ => ?_
      exact ih fun b hb => hg b (List.mem_cons_of_mem a hb)

/-- A program without exceptions ends where it ends, if it returns. -/
theorem NeverRaises.wp_state {c : Effect σ ε α} {R : σ → Prop} {s : σ} (hc : NeverRaises c)
    (hR : R (c s).2) : wp c (fun _ s' => R s') (fun _ _ => False) s := by
  have h := hc s
  unfold wp
  rcases hs : c s with ⟨o, s'⟩
  rw [hs] at h hR
  cases o with
  | ok a => exact hR
  | raised e => exact absurd rfl (h e)
  | undefined => trivial
  | pending => trivial

/-- A program that raises nothing, by what it does where it returns. -/
theorem NeverRaises.wp_ok {c : Effect σ ε α} {s : σ} (hc : NeverRaises c) (h : wp c Q E s) :
    wp c Q (fun _ _ => False) s := by
  have hraise := hc s
  unfold wp at h ⊢
  rcases hs : c s with ⟨o, s'⟩
  rw [hs] at h hraise
  cases o with
  | ok a => exact h
  | raised e => exact absurd rfl (hraise e)
  | undefined => trivial
  | pending => trivial

theorem NeverRaises.zoom {get : τ → σ} {set : σ → τ → τ} {c : Effect σ ε α}
    (hc : NeverRaises c) : NeverRaises (Effect.zoom get set c) := fun t => hc (get t)

end Effect

end IbmmqExporter.Foundation
