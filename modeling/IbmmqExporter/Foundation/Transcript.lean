/-
  Foundation/Transcript.lean --- what a program adds to a log.

  Where a program records what it does in a log, what it does can be told from what it
  has appended: piece by piece, each piece the events of one exchange.

  WHAT THE FILE PROVIDES.  A logic of what is appended, with a rule for each construct of
  `Effect`, the preorder of the programs that append exchanges, and logs in which every
  event is one that the state allows to which those in front of it lead.
-/
import Mathlib.Algebra.Order.Group.Multiset
import IbmmqExporter.Foundation.Course

set_option autoImplicit false

namespace IbmmqExporter.Foundation.Effect

variable {σ τ ε α β κ ι : Type} {log : σ → List κ}

/-- What the program appends to the log is as `Q` says of it and of what is returned, or
as `F` says if an exception is raised. -/
def Says (log : σ → List κ) (c : Effect σ ε α) (Q : α → List κ → Prop) (F : List κ → Prop) :
    Prop :=
  ∀ s, wp c (fun a s' => ∃ new, log s' = log s ++ new ∧ Q a new)
    (fun _ s' => ∃ new, log s' = log s ++ new ∧ F new) s

section Rules

variable {Q : α → List κ → Prop} {F : List κ → Prop}

theorem says_of_preserves {c : Effect σ ε α} (hc : Preserves log c) (hQ : ∀ a, Q a [])
    (hF : F []) : Says log c Q F := by
  intro s
  have hkept : wp c (fun _ s' => log s' = log s) (fun _ s' => log s' = log s) s :=
    wp_of_state (hc s)
  refine wp_mono hkept (fun a s' h => ⟨[], ?_, hQ a⟩) fun _ s' h => ⟨[], ?_, hF⟩
  · rw [h, List.append_nil]
  · rw [h, List.append_nil]

theorem says_pure {a : α} (hQ : Q a []) : Says log (pure a : Effect σ ε α) Q F :=
  fun s => ⟨[], (List.append_nil (log s)).symm, hQ⟩

theorem says_gets {f : σ → α} (hQ : ∀ a, Q a []) : Says log (gets f : Effect σ ε α) Q F :=
  fun s => ⟨[], (List.append_nil (log s)).symm, hQ _⟩

theorem says_raise {e : ε} (hF : F []) : Says log (raise e : Effect σ ε α) Q F :=
  fun s => ⟨[], (List.append_nil (log s)).symm, hF⟩

theorem says_lift {x : Outcome ε α} (hQ : ∀ a, Q a []) (hF : F []) :
    Says log (lift x : Effect σ ε α) Q F := says_of_preserves (preserves_lift x) hQ hF

theorem Says.mono {Q' : α → List κ → Prop} {F' : List κ → Prop} {c : Effect σ ε α}
    (hc : Says log c Q F) (hQ : ∀ a new, Q a new → Q' a new) (hF : ∀ new, F new → F' new) :
    Says log c Q' F' := by
  intro s
  refine wp_mono (hc s) ?_ ?_
  · rintro a s' ⟨new, hlog, hnew⟩
    exact ⟨new, hlog, hQ a new hnew⟩
  · rintro e s' ⟨new, hlog, hnew⟩
    exact ⟨new, hlog, hF new hnew⟩

/-- One program behind another says what both say. -/
theorem Says.bind {c : Effect σ ε α} {d : α → Effect σ ε β} {R : β → List κ → Prop}
    {G : List κ → Prop} (hc : Says log c Q G)
    (hd : ∀ a new, Q a new →
      Says log (d a) (fun b new' => R b (new ++ new')) fun new' => G (new ++ new')) :
    Says log (c >>= d) R G := by
  intro s
  refine wp_seq (hc s) ?_
  rintro a s' ⟨new, hlog, hnew⟩
  refine wp_mono (hd a new hnew s') ?_ ?_
  · rintro b s'' ⟨new', hlog', hnew'⟩
    exact ⟨new ++ new', by rw [hlog', hlog, List.append_assoc], hnew'⟩
  · rintro e s'' ⟨new', hlog', hnew'⟩
    exact ⟨new ++ new', by rw [hlog', hlog, List.append_assoc], hnew'⟩

theorem says_ite {p : Prop} [Decidable p] {c d : Effect σ ε α} (hc : p → Says log c Q F)
    (hd : ¬ p → Says log d Q F) : Says log (if p then c else d) Q F := by
  split
  · next hp => exact hc hp
  · next hp => exact hd hp

/-- An exception that is turned into "none". -/
theorem Says.attempt {c : Effect σ ε α} {G : List κ → Prop} (hc : Says log c Q F) :
    Says log (tryCatch (some <$> c) fun _ => pure none)
      (fun x new => (∃ a, x = some a ∧ Q a new) ∨ (x = none ∧ F new)) G := by
  intro s
  rw [wp_tryCatch, wp_map]
  refine wp_mono (hc s) ?_ ?_
  · rintro a s' ⟨new, hlog, hnew⟩
    exact ⟨new, hlog, Or.inl ⟨a, rfl, hnew⟩⟩
  · rintro e s' ⟨new, hlog, hnew⟩
    exact ⟨new, hlog, Or.inr ⟨rfl, hnew⟩⟩

end Rules

/-! ## Exchanges -/

section Emits

variable {events : ι → List κ}

/-- The log has grown by the events of some exchanges. -/
def Emits (log : σ → List κ) (events : ι → List κ) (s s' : σ) : Prop :=
  ∃ xs : List ι, log s' = log s ++ xs.flatMap events

instance : Std.Refl (Emits log events) := ⟨fun s => ⟨[], (List.append_nil (log s)).symm⟩⟩

instance : IsTrans σ (Emits log events) where
  trans := by
    rintro s s' s'' ⟨xs, hlog⟩ ⟨xs', hlog'⟩
    exact ⟨xs ++ xs', by rw [hlog', hlog, List.flatMap_append, List.append_assoc]⟩

/-- What is said is nothing, or one exchange. -/
def Spoken (events : ι → List κ) (new : List κ) : Prop := new = [] ∨ ∃ x, new = events x

theorem spoken_nil : Spoken events [] := Or.inl rfl

theorem spoken_of_eq {new : List κ} (x : ι) (h : new = events x) : Spoken events new :=
  Or.inr ⟨x, h⟩

theorem Says.within {c : Effect σ ε α}
    (hc : Says log c (fun _ => Spoken events) (Spoken events)) :
    Within (Emits log events) c := by
  have hspoken {s s' : σ} {new : List κ} (hlog : log s' = log s ++ new)
      (hnew : Spoken events new) : Emits log events s s' := by
    rcases hnew with rfl | ⟨x, rfl⟩
    · exact ⟨[], hlog⟩
    · exact ⟨[x], by rw [hlog, List.flatMap_singleton]⟩
  intro s
  refine wp_mono (hc s) ?_ ?_
  · rintro a s' ⟨new, hlog, hnew⟩
    exact hspoken hlog hnew
  · rintro e s' ⟨new, hlog, hnew⟩
    exact hspoken hlog hnew

end Emits

/-! ## Events and what they lead to -/

section Path

variable {Q : Type} {may : Q → κ → Q → Prop} {q q' q'' : Q} {e : κ} {l l' : List κ}

/-- The events lead from one state to another, each by a move. -/
inductive Path (may : Q → κ → Q → Prop) : Q → List κ → Q → Prop where
  | nil (q : Q) : Path may q [] q
  | cons {q q' q'' : Q} {e : κ} {l : List κ} :
      may q e q' → Path may q' l q'' → Path may q (e :: l) q''

theorem Path.single (h : may q e q') : Path may q [e] q' := .cons h (.nil q')

theorem Path.append (h : Path may q l q') (h' : Path may q' l' q'') :
    Path may q (l ++ l') q'' := by
  induction h with
  | nil => exact h'
  | cons hmove _ ih => exact .cons hmove (ih h')

/-- Events that leave the state as it is. -/
theorem path_of_steady (h : ∀ e ∈ l, may q e q) : Path may q l q := by
  induction l with
  | nil => exact .nil q
  | cons e l ih =>
      obtain ⟨he, hl⟩ := List.forall_mem_cons.mp h
      exact .cons he (ih hl)

end Path

/-! ## What is held -/

section Turns

variable {ρ : Type} {may : Multiset ρ → κ → Multiset ρ → Prop} {a b c : Multiset ρ}
  {l l' : List κ}

/-- Where `a` is held, and anything else, the events may follow, and leave `b` and the
rest. -/
def Turns (may : Multiset ρ → κ → Multiset ρ → Prop) (a : Multiset ρ) (l : List κ)
    (b : Multiset ρ) : Prop :=
  ∀ rest, ∃ left, Path may (a + rest) l left ∧ b + rest ≤ left

theorem turns_of_path (h : ∀ rest, Path may (a + rest) l (b + rest)) : Turns may a l b :=
  fun rest => ⟨b + rest, h rest, le_rfl⟩

theorem turns_nil (a : Multiset ρ) : Turns may a [] a := turns_of_path fun _ => .nil _

theorem Turns.weaken (h : Turns may a l b) (hle : c ≤ b) : Turns may a l c := by
  intro rest
  obtain ⟨left, hpath, hleft⟩ := h rest
  exact ⟨left, hpath, le_trans (add_le_add_left hle rest) hleft⟩

theorem Turns.append (h : Turns may a l b) (h' : Turns may b l' c) :
    Turns may a (l ++ l') c := by
  intro rest
  obtain ⟨left, hpath, hle⟩ := h rest
  obtain ⟨more, rfl⟩ := Multiset.le_iff_exists_add.mp hle
  obtain ⟨left', hpath', hle'⟩ := h' (rest + more)
  rw [← add_assoc] at hpath' hle'
  exact ⟨left', hpath.append hpath', le_trans (Multiset.le_add_right _ _) hle'⟩

/-- What is held besides stays held. -/
theorem Turns.frame (h : Turns may a l b) (c : Multiset ρ) : Turns may (a + c) l (b + c) := by
  intro rest
  obtain ⟨left, hpath, hle⟩ := h (c + rest)
  rw [← add_assoc] at hpath hle
  exact ⟨left, hpath, hle⟩

/-- What has been appended between two states may follow, and turns what is held in the
one into what is held in the other. -/
def Turning (may : Multiset ρ → κ → Multiset ρ → Prop) (log : σ → List κ)
    (held : σ → Multiset ρ) (s s' : σ) : Prop :=
  ∃ new, log s' = log s ++ new ∧ Turns may (held s) new (held s')

variable {held : σ → Multiset ρ}

instance : Std.Refl (Turning may log held) :=
  ⟨fun s => ⟨[], (List.append_nil (log s)).symm, turns_nil (held s)⟩⟩

instance : IsTrans σ (Turning may log held) where
  trans := by
    rintro s s' s'' ⟨new, hlog, hnew⟩ ⟨new', hlog', hnew'⟩
    exact ⟨new ++ new', by rw [hlog', hlog, List.append_assoc], hnew.append hnew'⟩

/-- From nothing held, the log leads to where at least this is held. -/
def Leaves (may : Multiset ρ → κ → Multiset ρ → Prop) (l : List κ) (a : Multiset ρ) : Prop :=
  ∃ left, Path may 0 l left ∧ a ≤ left

theorem Leaves.turn (h : Leaves may l a) (h' : Turns may a l' b) : Leaves may (l ++ l') b := by
  obtain ⟨left, hpath, hle⟩ := h
  obtain ⟨rest, rfl⟩ := Multiset.le_iff_exists_add.mp hle
  obtain ⟨left', hpath', hle'⟩ := h' rest
  exact ⟨left', hpath.append hpath', le_trans (Multiset.le_add_right _ _) hle'⟩

theorem Turning.leaves {s s' : σ} (h : Turning may log held s s')
    (hs : Leaves may (log s) (held s)) : Leaves may (log s') (held s') := by
  obtain ⟨new, hlog, hnew⟩ := h
  rw [hlog]
  exact hs.turn hnew

end Turns

/-! ## Events and the states they lead through -/

section Obeys

variable {β : Type} {next : β → κ → β} {may : β → κ → Prop} {b : β} {l l' : List κ}

/-- From a state on, every event of the list is one that the state it meets allows. -/
def Obeys (next : β → κ → β) (may : β → κ → Prop) : β → List κ → Prop
  | _, [] => True
  | b, e :: l => may b e ∧ Obeys next may (next b e) l

theorem obeys_append :
    Obeys next may b (l ++ l') ↔ Obeys next may b l ∧ Obeys next may (l.foldl next b) l' := by
  induction l generalizing b with
  | nil => simp [Obeys]
  | cons e l ih => simp [Obeys, ih, and_assoc]

/-- What the state allows that an event meets. -/
theorem Obeys.at {before behind : List κ} {e : κ}
    (h : Obeys next may b (before ++ e :: behind)) : may (before.foldl next b) e :=
  (obeys_append.mp h).2.1

/-- Events that the state allows and that leave it as it is. -/
theorem obeys_of_steady (h : ∀ e ∈ l, may b e ∧ next b e = b) :
    Obeys next may b l ∧ l.foldl next b = b := by
  induction l with
  | nil => exact ⟨trivial, rfl⟩
  | cons e l ih =>
      obtain ⟨⟨hmay, hnext⟩, hl⟩ := List.forall_mem_cons.mp h
      obtain ⟨hobeys, hfold⟩ := ih hl
      refine ⟨⟨hmay, ?_⟩, ?_⟩
      · rw [hnext]
        exact hobeys
      · rw [List.foldl_cons, hnext]
        exact hfold

end Obeys

end IbmmqExporter.Foundation.Effect
