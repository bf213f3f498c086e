/-
  Foundation/Recorder.lean --- programs that append what they do to a log.

  A part of the state is a log, and a program only ever appends to it.  Some of the
  events are bad, and `Watches` says that a bad event is what makes the program leave
  the region in which it is defined: a run that returns or raises has recorded none,
  and a run that is undefined has.  `Overruns` is what is left to do behind a bad
  event: a program that does not return any more.

  `Latches` is about a flag that a bad event takes down, and that nothing puts up
  again.

  WHAT THE FILE PROVIDES.  The rules of the three for the constructs of `Effect`, and
  what `Watches` and `Latches` say of one run.
-/
import IbmmqExporter.Foundation.Effect

set_option autoImplicit false

namespace IbmmqExporter.Foundation.Effect

variable {σ τ ε α β κ : Type} {log : σ → List κ} {bad : κ → Prop}

/-! ## Definitions -/

/-- What the outcome of a run says of the events that the run has recorded. -/
def Sound (bad : κ → Prop) (new : List κ) : Outcome ε α → Prop
  | .ok _ => ∀ e ∈ new, ¬ bad e
  | .raised _ => ∀ e ∈ new, ¬ bad e
  | .undefined => ∃ e ∈ new, bad e
  | .pending => True

/-- Every run appends events to the log, and is undefined if and only if one of them
is bad. -/
def Watches (log : σ → List κ) (bad : κ → Prop) (c : Effect σ ε α) : Prop :=
  ∀ s, ∃ new, log (c s).2 = log s ++ new ∧ Sound bad new (c s).1

/-- Every run appends events to the log, and neither returns nor raises. -/
def Overruns (log : σ → List κ) (c : Effect σ ε α) : Prop :=
  ∀ s, ∃ new, log (c s).2 = log s ++ new ∧ ((c s).1 = .undefined ∨ (c s).1 = .pending)

/-- The events that a run records. -/
def recorded (log : σ → List κ) (c : Effect σ ε α) (s : σ) : List κ :=
  (log (c s).2).drop (log s).length

/-! ## Rules -/

/-- A program that leaves the log as it is and always returns or raises. -/
theorem watches_of_preserves {c : Effect σ ε α} (hlog : Preserves log c)
    (hdef : ∀ s, (c s).1 ≠ .undefined) : Watches log bad c := by
  intro s
  refine ⟨[], by rw [hlog s, List.append_nil], ?_⟩
  rcases hc : (c s).1 with _ | _ | _ | _
  · intro e he
    cases he
  · intro e he
    cases he
  · exact absurd hc (hdef s)
  · trivial

theorem watches_pure (a : α) : Watches log bad (pure a : Effect σ ε α) :=
  watches_of_preserves (preserves_pure a) fun _ h => by cases h

theorem watches_gets (f : σ → α) : Watches log bad (gets f : Effect σ ε α) :=
  watches_of_preserves (preserves_gets f) fun _ h => by cases h

theorem watches_raise (e : ε) : Watches log bad (raise e : Effect σ ε α) :=
  watches_of_preserves (preserves_raise e) fun _ h => by cases h

theorem watches_modify {f : σ → σ} (h : ∀ s, log (f s) = log s) :
    Watches log bad (modify f : Effect σ ε Unit) :=
  watches_of_preserves (preserves_modify h) fun _ h => by cases h

theorem watches_lift {x : Outcome ε α} (h : x ≠ .undefined) :
    Watches log bad (lift x : Effect σ ε α) :=
  watches_of_preserves (preserves_lift x) fun _ => h

theorem watches_ite {p : Prop} [Decidable p] {c d : Effect σ ε α} (hc : p → Watches log bad c)
    (hd : ¬ p → Watches log bad d) : Watches log bad (if p then c else d) := by
  split
  · next h => exact hc h
  · next h => exact hd h

theorem watches_when {p : Prop} [Decidable p] {c : Effect σ ε Unit} (hc : Watches log bad c) :
    Watches log bad (when p c) :=
  watches_ite (fun _ => hc) fun _ => watches_pure ()

/-- The events of two parts, one after the other. -/
theorem Sound.append {new new' : List κ} {o : Outcome ε β} (hnew : ∀ e ∈ new, ¬ bad e)
    (ho : Sound bad new' o) : Sound bad (new ++ new') o := by
  cases o with
  | ok b =>
      intro e he
      rcases List.mem_append.mp he with he | he
      · exact hnew e he
      · exact ho e he
  | raised x =>
      intro e he
      rcases List.mem_append.mp he with he | he
      · exact hnew e he
      · exact ho e he
  | undefined =>
      obtain ⟨e, he, hbad⟩ := ho
      exact ⟨e, List.mem_append_right new he, hbad⟩
  | pending => trivial

theorem Watches.bind {c : Effect σ ε α} {d : α → Effect σ ε β} (hc : Watches log bad c)
    (hd : ∀ a, Watches log bad (d a)) : Watches log bad (c >>= d) := by
  intro s
  obtain ⟨new, hlog, hsound⟩ := hc s
  rw [bind_apply]
  rcases hs : c s with ⟨o, s'⟩
  rw [hs] at hlog hsound
  cases o with
  | ok a =>
      obtain ⟨new', hlog', hsound'⟩ := hd a s'
      refine ⟨new ++ new', ?_, Sound.append hsound hsound'⟩
      rw [hlog', hlog, List.append_assoc]
  | raised e => exact ⟨new, hlog, hsound⟩
  | undefined => exact ⟨new, hlog, hsound⟩
  | pending => exact ⟨new, hlog, trivial⟩

theorem Watches.map {c : Effect σ ε α} (hc : Watches log bad c) (f : α → β) :
    Watches log bad (f <$> c) := by
  rw [map_eq_pure_bind]
  exact hc.bind fun a => watches_pure (f a)

theorem Watches.tryCatch {c : Effect σ ε α} {h : ε → Effect σ ε α} (hc : Watches log bad c)
    (hh : ∀ e, Watches log bad (h e)) : Watches log bad (Effect.tryCatch c h) := by
  intro s
  obtain ⟨new, hlog, hsound⟩ := hc s
  unfold Effect.tryCatch
  rcases hs : c s with ⟨o, s'⟩
  rw [hs] at hlog hsound
  cases o with
  | ok a => exact ⟨new, hlog, hsound⟩
  | raised e =>
      obtain ⟨new', hlog', hsound'⟩ := hh e s'
      refine ⟨new ++ new', ?_, Sound.append hsound hsound'⟩
      rw [hlog', hlog, List.append_assoc]
  | undefined => exact ⟨new, hlog, hsound⟩
  | pending => exact ⟨new, hlog, trivial⟩

/-- Nothing is done behind an undefined operation. -/
theorem overruns_lift_bind {f : α → Effect σ ε β} :
    Overruns log (lift (.undefined : Outcome ε α) >>= f) := by
  intro s
  exact ⟨[], (List.append_nil _).symm, Or.inl rfl⟩

/-! ## One run -/

/-- A run that ends stays defined exactly when none of its events is bad. -/
theorem Watches.defined_iff {c : Effect σ ε α} (hc : Watches log bad c) {s : σ}
    (hend : (c s).1 ≠ .pending) :
    (c s).1 ≠ .undefined ↔ ∀ e ∈ recorded log c s, ¬ bad e := by
  obtain ⟨new, hlog, hsound⟩ := hc s
  have hnew : recorded log c s = new := by
    unfold recorded
    rw [hlog, List.drop_left]
  rw [hnew]
  rcases hs : (c s).1 with a | e | _ | _
  · rw [hs] at hsound
    exact iff_of_true (fun h => by cases h) hsound
  · rw [hs] at hsound
    exact iff_of_true (fun h => by cases h) hsound
  · rw [hs] at hsound
    obtain ⟨e, he, hbad⟩ := hsound
    exact iff_of_false (fun h => h rfl) fun h => h e he hbad
  · exact absurd hs hend

/-! ## Flags -/

/-- Every run appends events to the log, and takes the flag down if it records a bad
one. -/
def Latches (log : σ → List κ) (bad : κ → Bool) (up : σ → Bool) (c : Effect σ ε α) : Prop :=
  ∀ s, ∃ new, log (c s).2 = log s ++ new ∧ up (c s).2 = (up s && !new.any bad)

section Latches

variable {bad : κ → Bool} {up : σ → Bool}

theorem latches_of_preserves {c : Effect σ ε α} (hlog : Preserves log c)
    (hup : Preserves up c) : Latches log bad up c := by
  intro s
  refine ⟨[], ?_, ?_⟩
  · rw [hlog s, List.append_nil]
  · rw [hup s]
    exact (Bool.and_true _).symm

theorem latches_pure (a : α) : Latches log bad up (pure a : Effect σ ε α) :=
  latches_of_preserves (preserves_pure a) (preserves_pure a)

theorem latches_ite {p : Prop} [Decidable p] {c d : Effect σ ε α} (hc : Latches log bad up c)
    (hd : Latches log bad up d) : Latches log bad up (if p then c else d) := by
  split
  · exact hc
  · exact hd

/-- Two runs, one after the other. -/
theorem latches_append {s₀ s₁ s₂ : σ} {new new' : List κ} (h₁ : log s₁ = log s₀ ++ new)
    (hup₁ : up s₁ = (up s₀ && !new.any bad)) (h₂ : log s₂ = log s₁ ++ new')
    (hup₂ : up s₂ = (up s₁ && !new'.any bad)) :
    log s₂ = log s₀ ++ (new ++ new') ∧ up s₂ = (up s₀ && !(new ++ new').any bad) := by
  constructor
  · rw [h₂, h₁, List.append_assoc]
  · rw [hup₂, hup₁, List.any_append, Bool.not_or, Bool.and_assoc]

theorem Latches.bind {c : Effect σ ε α} {d : α → Effect σ ε β} (hc : Latches log bad up c)
    (hd : ∀ a, Latches log bad up (d a)) : Latches log bad up (c >>= d) := by
  intro s
  obtain ⟨new, hlog, hup⟩ := hc s
  rw [bind_apply]
  rcases hs : c s with ⟨o, s'⟩
  rw [hs] at hlog hup
  cases o with
  | ok a =>
      obtain ⟨new', hlog', hup'⟩ := hd a s'
      exact ⟨new ++ new', latches_append hlog hup hlog' hup'⟩
  | raised e => exact ⟨new, hlog, hup⟩
  | undefined => exact ⟨new, hlog, hup⟩
  | pending => exact ⟨new, hlog, hup⟩

theorem Latches.tryCatch {c : Effect σ ε α} {h : ε → Effect σ ε α}
    (hc : Latches log bad up c) (hh : ∀ e, Latches log bad up (h e)) :
    Latches log bad up (Effect.tryCatch c h) := by
  intro s
  obtain ⟨new, hlog, hup⟩ := hc s
  unfold Effect.tryCatch
  rcases hs : c s with ⟨o, s'⟩
  rw [hs] at hlog hup
  cases o with
  | ok a => exact ⟨new, hlog, hup⟩
  | raised e =>
      obtain ⟨new', hlog', hup'⟩ := hh e s'
      exact ⟨new ++ new', latches_append hlog hup hlog' hup'⟩
  | undefined => exact ⟨new, hlog, hup⟩
  | pending => exact ⟨new, hlog, hup⟩

/-- A program of a component, seen from the whole. -/
theorem Latches.zoom {get : τ → σ} {set : σ → τ → τ} {c : Effect σ ε α}
    (hset : ∀ s t, get (set s t) = s) (hc : Latches log bad up c) :
    Latches (fun t => log (get t)) bad (fun t => up (get t)) (Effect.zoom get set c) := by
  intro t
  obtain ⟨new, hlog, hup⟩ := hc (get t)
  refine ⟨new, ?_⟩
  rw [zoom_apply]
  dsimp only
  rw [hset]
  exact ⟨hlog, hup⟩

/-- The flag behind a run. -/
theorem Latches.flag_eq {c : Effect σ ε α} (hc : Latches log bad up c) (s : σ) :
    up (c s).2 = (up s && !(recorded log c s).any bad) := by
  obtain ⟨new, hlog, hup⟩ := hc s
  have hnew : recorded log c s = new := by
    unfold recorded
    rw [hlog, List.drop_left]
  rw [hnew, hup]

end Latches

end IbmmqExporter.Foundation.Effect
