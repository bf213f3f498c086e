/-
  Foundation/Blame.lean --- which event is to blame for undefined behaviour.

  Some of the events that a program records are fatal: behind such an event it neither
  returns nor raises.  Others are suspect: what the program has learned with them may make
  it undefined later on, or may not.

  WHAT THE FILE PROVIDES.  `Accounts` says that every undefined run has recorded an event
  of one of the two kinds, and that no run that returns or raises has recorded a fatal one.
  It has the rules for the constructs of `Effect`, one for a result that is interpreted, and
  `Watches` is the case without suspects.
-/
import IbmmqExporter.Foundation.Recorder

set_option autoImplicit false

namespace IbmmqExporter.Foundation.Effect

variable {σ τ ε α β κ : Type} {log : σ → List κ} {fatal suspect : κ → Prop}

/-! ## Definitions -/

/-- What the outcome of a run says of the events that the run has recorded. -/
def Justified (fatal suspect : κ → Prop) (new : List κ) : Outcome ε α → Prop
  | .ok _ => ∀ e ∈ new, ¬ fatal e
  | .raised _ => ∀ e ∈ new, ¬ fatal e
  | .undefined => ∃ e ∈ new, fatal e ∨ suspect e
  | .pending => True

/-- Every run appends events to the log; if it is undefined, then one of them is to blame,
and if it ends otherwise, then none of them is fatal. -/
def Accounts (log : σ → List κ) (fatal suspect : κ → Prop) (c : Effect σ ε α) : Prop :=
  ∀ s, ∃ new, log (c s).2 = log s ++ new ∧ Justified fatal suspect new (c s).1

/-- The events of two parts, one after the other. -/
theorem Justified.append {new new' : List κ} {o : Outcome ε β} (hnew : ∀ e ∈ new, ¬ fatal e)
    (ho : Justified fatal suspect new' o) : Justified fatal suspect (new ++ new') o := by
  cases o with
  | ok b => exact List.forall_mem_append.mpr ⟨hnew, ho⟩
  | raised x => exact List.forall_mem_append.mpr ⟨hnew, ho⟩
  | undefined =>
      obtain ⟨e, he, hblame⟩ := ho
      exact ⟨e, List.mem_append_right new he, hblame⟩
  | pending => trivial

/-! ## Rules -/

/-- Where only fatal events make a program undefined. -/
theorem Watches.accounts {c : Effect σ ε α} (hc : Watches log fatal c) :
    Accounts log fatal suspect c := by
  intro s
  obtain ⟨new, hlog, hsound⟩ := hc s
  refine ⟨new, hlog, ?_⟩
  cases ho : (c s).1 with
  | ok a =>
      rw [ho] at hsound
      exact hsound
  | raised e =>
      rw [ho] at hsound
      exact hsound
  | undefined =>
      rw [ho] at hsound
      obtain ⟨e, he, hfatal⟩ := hsound
      exact ⟨e, he, Or.inl hfatal⟩
  | pending => trivial

theorem accounts_pure (a : α) : Accounts log fatal suspect (pure a : Effect σ ε α) :=
  (watches_pure a).accounts

theorem accounts_gets (f : σ → α) : Accounts log fatal suspect (gets f : Effect σ ε α) :=
  (watches_gets f).accounts

theorem accounts_modify {f : σ → σ} (h : ∀ s, log (f s) = log s) :
    Accounts log fatal suspect (modify f : Effect σ ε Unit) := (watches_modify h).accounts

theorem accounts_lift {x : Outcome ε α} (h : x ≠ .undefined) :
    Accounts log fatal suspect (lift x : Effect σ ε α) := (watches_lift h).accounts

theorem accounts_of_returns {x : Outcome ε α} (h : x.Returns) :
    Accounts log fatal suspect (lift x : Effect σ ε α) := by
  refine accounts_lift fun hundefined => ?_
  rw [hundefined] at h
  exact Outcome.not_returns_undefined h

theorem accounts_ite {p : Prop} [Decidable p] {c d : Effect σ ε α}
    (hc : Accounts log fatal suspect c) (hd : Accounts log fatal suspect d) :
    Accounts log fatal suspect (if p then c else d) := by
  split
  · exact hc
  · exact hd

theorem accounts_when {p : Prop} [Decidable p] {c : Effect σ ε Unit}
    (hc : Accounts log fatal suspect c) : Accounts log fatal suspect (when p c) :=
  accounts_ite hc (accounts_pure ())

theorem Accounts.bind {c : Effect σ ε α} {d : α → Effect σ ε β}
    (hc : Accounts log fatal suspect c) (hd : ∀ a, Accounts log fatal suspect (d a)) :
    Accounts log fatal suspect (c >>= d) := by
  intro s
  obtain ⟨new, hlog, hblame⟩ := hc s
  rw [bind_apply]
  rcases hs : c s with ⟨o, s'⟩
  rw [hs] at hlog hblame
  cases o with
  | ok a =>
      obtain ⟨new', hlog', hblame'⟩ := hd a s'
      refine ⟨new ++ new', ?_, hblame'.append hblame⟩
      rw [hlog', hlog, List.append_assoc]
  | raised e => exact ⟨new, hlog, hblame⟩
  | undefined => exact ⟨new, hlog, hblame⟩
  | pending => exact ⟨new, hlog, trivial⟩

theorem Accounts.map {c : Effect σ ε α} (hc : Accounts log fatal suspect c) (f : α → β) :
    Accounts log fatal suspect (f <$> c) := by
  rw [map_eq_pure_bind]
  exact hc.bind fun a => accounts_pure (f a)

theorem Accounts.tryCatch {c : Effect σ ε α} {h : ε → Effect σ ε α}
    (hc : Accounts log fatal suspect c) (hh : ∀ e, Accounts log fatal suspect (h e)) :
    Accounts log fatal suspect (Effect.tryCatch c h) := by
  intro s
  obtain ⟨new, hlog, hblame⟩ := hc s
  unfold Effect.tryCatch
  rcases hs : c s with ⟨o, s'⟩
  rw [hs] at hlog hblame
  cases o with
  | ok a => exact ⟨new, hlog, hblame⟩
  | raised e =>
      obtain ⟨new', hlog', hblame'⟩ := hh e s'
      refine ⟨new ++ new', ?_, hblame'.append hblame⟩
      rw [hlog', hlog, List.append_assoc]
  | undefined => exact ⟨new, hlog, hblame⟩
  | pending => exact ⟨new, hlog, trivial⟩

theorem accounts_forEach {l : List α} {f : α → Effect σ ε Unit}
    (hf : ∀ a ∈ l, Accounts log fatal suspect (f a)) :
    Accounts log fatal suspect (forEach l f) := by
  induction l with
  | nil => exact accounts_pure ()
  | cons a l ih =>
      refine (hf a List.mem_cons_self).bind fun _ => ?_
      exact ih fun b hb => hf b (List.mem_cons_of_mem a hb)

/-- A program of a component, seen from the whole. -/
theorem Accounts.zoom {get : τ → σ} {set : σ → τ → τ} {c : Effect σ ε α}
    (hset : ∀ s t, get (set s t) = s) (hc : Accounts log fatal suspect c) :
    Accounts (fun t => log (get t)) fatal suspect (Effect.zoom get set c) := by
  intro t
  obtain ⟨new, hlog, hblame⟩ := hc (get t)
  refine ⟨new, ?_, hblame⟩
  rw [zoom_apply]
  dsimp only
  rw [hset]
  exact hlog

/-- A result that is interpreted: this is defined unless the result has come with an event
that is suspect. -/
theorem Watches.interpret {c : Effect σ ε α} {x : α → Outcome ε β} (hc : Watches log fatal c)
    (hx : ∀ s s' a new, c s = (.ok a, s') → log s' = log s ++ new →
      (∀ e ∈ new, ¬ suspect e) → x a ≠ .undefined) :
    Accounts log fatal suspect (c >>= fun a => lift (x a)) := by
  intro s
  have haccounts : Accounts log fatal suspect c := hc.accounts
  obtain ⟨new, hlog, hblame⟩ := haccounts s
  rw [bind_apply]
  rcases hs : c s with ⟨o, s'⟩
  rw [hs] at hlog hblame
  cases o with
  | ok a =>
      refine ⟨new, hlog, ?_⟩
      show Justified fatal suspect new (x a)
      cases hxa : x a with
      | ok b => exact hblame
      | raised e => exact hblame
      | undefined =>
          -- were none of the events suspect, the result would be defined
          by_contra hnone
          refine hx s s' a new hs hlog (fun e he hsuspect => hnone ?_) hxa
          exact ⟨e, he, Or.inr hsuspect⟩
      | pending => trivial
  | raised e => exact ⟨new, hlog, hblame⟩
  | undefined => exact ⟨new, hlog, hblame⟩
  | pending => exact ⟨new, hlog, trivial⟩

/-! ## One run -/

/-- The events of an undefined run are to blame. -/
theorem Accounts.blames {c : Effect σ ε α} (hc : Accounts log fatal suspect c) {s : σ}
    (h : (c s).1 = .undefined) : ∃ e ∈ recorded log c s, fatal e ∨ suspect e := by
  obtain ⟨new, hlog, hblame⟩ := hc s
  unfold recorded
  rw [hlog, List.drop_left]
  rw [h] at hblame
  exact hblame

/-- A run that ends with a result or an exception has added no fatal event. -/
theorem Accounts.wp {c : Effect σ ε α} (hc : Accounts log fatal suspect c) {s : σ}
    (hs : ∀ e ∈ log s, ¬ fatal e) :
    wp c (fun _ s' => ∀ e ∈ log s', ¬ fatal e) (fun _ s' => ∀ e ∈ log s', ¬ fatal e) s := by
  obtain ⟨new, hlog, hblame⟩ := hc s
  unfold Effect.wp
  rcases hrun : c s with ⟨o, s'⟩
  rw [hrun] at hlog hblame
  dsimp only at hlog
  have hboth (hnew : ∀ e ∈ new, ¬ fatal e) : ∀ e ∈ log s', ¬ fatal e := by
    rw [hlog]
    exact List.forall_mem_append.mpr ⟨hs, hnew⟩
  cases o with
  | ok a => exact hboth hblame
  | raised e => exact hboth hblame
  | undefined => trivial
  | pending => trivial

end IbmmqExporter.Foundation.Effect
