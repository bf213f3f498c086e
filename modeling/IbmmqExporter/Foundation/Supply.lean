/-
  Foundation/Supply.lean --- programs that are given their answers.

  A program asks its environment, which has answers in supply; each question takes the
  first of them away.

  WHAT THE FILE PROVIDES.  `Uses` is the total correctness of such a program: given these
  answers in front of any others it returns, and has taken these away and no others.  Its
  rules put the answers to the parts of a program one behind the other.
-/
import IbmmqExporter.Foundation.Effect

set_option autoImplicit false

namespace IbmmqExporter.Foundation.Effect

variable {σ τ ε α β ι κ : Type} {supply : σ → List κ} {P : σ → Prop} {Q R : α → σ → Prop}
  {used used' : List κ}

/-- In a state that meets `P` the program returns, having taken away these answers, with
what meets `Q`. -/
def Uses (supply : σ → List κ) (P : σ → Prop) (c : Effect σ ε α) (used : List κ)
    (Q : α → σ → Prop) : Prop :=
  ∀ s rest, P s → supply s = used ++ rest →
    ∃ a s', c s = (.ok a, s') ∧ supply s' = rest ∧ Q a s'

/-! ## Programs without a question -/

theorem uses_pure {a : α} (hQ : ∀ s, P s → Q a s) :
    Uses supply P (pure a : Effect σ ε α) [] Q :=
  fun s _ hs hsupply => ⟨a, s, rfl, hsupply, hQ s hs⟩

theorem uses_gets {f : σ → α} (hQ : ∀ s, P s → Q (f s) s) :
    Uses supply P (gets f : Effect σ ε α) [] Q :=
  fun s _ hs hsupply => ⟨f s, s, rfl, hsupply, hQ s hs⟩

theorem uses_modify {f : σ → σ} {Q : Unit → σ → Prop} (hf : ∀ s, supply (f s) = supply s)
    (hQ : ∀ s, P s → Q () (f s)) : Uses supply P (modify f : Effect σ ε Unit) [] Q :=
  fun s _ hs hsupply => ⟨(), f s, rfl, (hf s).trans hsupply, hQ s hs⟩

theorem uses_lift {x : Outcome ε α} {a : α} (hx : x = .ok a) (hQ : ∀ s, P s → Q a s) :
    Uses supply P (lift x) [] Q :=
  fun s _ hs hsupply => ⟨a, s, by rw [hx]; rfl, hsupply, hQ s hs⟩

/-! ## Programs of parts -/

theorem Uses.mono {P' : σ → Prop} {c : Effect σ ε α} (hc : Uses supply P c used Q)
    (hP : ∀ s, P' s → P s) (hQ : ∀ a s, Q a s → R a s) : Uses supply P' c used R := by
  intro s rest hs hsupply
  obtain ⟨a, s', hrun, hrest, ha⟩ := hc s rest (hP s hs) hsupply
  exact ⟨a, s', hrun, hrest, hQ a s' ha⟩

/-- The answers to the second part stand behind those to the first. -/
theorem Uses.bind {c : Effect σ ε α} {d : α → Effect σ ε β} {Q : β → σ → Prop}
    (hc : Uses supply P c used R) (hd : ∀ a, Uses supply (R a) (d a) used' Q) :
    Uses supply P (c >>= d) (used ++ used') Q := by
  intro s rest hs hsupply
  obtain ⟨a, s', hrun, hrest, ha⟩ := hc s (used' ++ rest) hs (by rw [hsupply, List.append_assoc])
  rw [bind_of_ok hrun]
  exact hd a s' rest ha hrest

/-- What the first part returns is known. -/
theorem Uses.then {c : Effect σ ε α} {d : α → Effect σ ε β} {a : α} {P' : σ → Prop}
    {Q : β → σ → Prop} (hc : Uses supply P c used fun b s => b = a ∧ P' s)
    (hd : Uses supply P' (d a) used' Q) : Uses supply P (c >>= d) (used ++ used') Q := by
  refine hc.bind fun b s rest ⟨hb, hs⟩ hsupply => ?_
  subst hb
  exact hd s rest hs hsupply

/-- The second part asks nothing. -/
theorem Uses.finally {c : Effect σ ε α} {d : α → Effect σ ε β} {a : α} {P' : σ → Prop}
    {Q : β → σ → Prop} (hc : Uses supply P c used fun b s => b = a ∧ P' s)
    (hd : Uses supply P' (d a) [] Q) : Uses supply P (c >>= d) used Q := by
  have hparts := hc.then hd
  rwa [List.append_nil] at hparts

/-- What is read of the state is known. -/
theorem uses_gets_then {f : σ → α} {d : α → Effect σ ε β} {a : α} {Q : β → σ → Prop}
    (hf : ∀ s, P s → f s = a) (hd : Uses supply P (d a) used Q) :
    Uses supply P (gets f >>= d) used Q := by
  have hread : Uses supply P (gets f : Effect σ ε α) [] fun b s => b = a ∧ P s :=
    uses_gets fun s hs => ⟨hf s hs, hs⟩
  exact hread.then hd

theorem Uses.map {c : Effect σ ε α} {f : α → β} {Q : β → σ → Prop}
    (hc : Uses supply P c used fun a => Q (f a)) : Uses supply P (f <$> c) used Q := by
  intro s rest hs hsupply
  obtain ⟨a, s', hrun, hrest, ha⟩ := hc s rest hs hsupply
  exact ⟨f a, s', map_of_ok f hrun, hrest, ha⟩

/-- A program that returns is not caught. -/
theorem Uses.tryCatch {c : Effect σ ε α} (hc : Uses supply P c used Q) {h : ε → Effect σ ε α} :
    Uses supply P (tryCatch c h) used Q := by
  intro s rest hs hsupply
  obtain ⟨a, s', hrun, hrest, ha⟩ := hc s rest hs hsupply
  exact ⟨a, s', tryCatch_of_ok hrun, hrest, ha⟩

/-- A program of a component that has the supply. -/
theorem Uses.zoom {get : τ → σ} {set : σ → τ → τ} {c : Effect σ ε α} {P' : τ → Prop}
    {Q' : α → τ → Prop} (hc : ∀ t, P' t → Uses supply (fun s => s = get t) c used
      fun a s => Q' a (set s t)) (hset : ∀ s t, get (set s t) = s) :
    Uses (fun t => supply (get t)) P' (zoom get set c) used Q' := by
  intro t rest ht hsupply
  obtain ⟨a, s', hrun, hrest, ha⟩ := hc t ht (get t) rest rfl hsupply
  refine ⟨a, set s' t, ?_, ?_, ha⟩
  · rw [zoom_apply, hrun]
  · exact (congrArg supply (hset s' t)).trans hrest

end IbmmqExporter.Foundation.Effect
