/-
  Foundation/Outcome.lean --- what a call of an imperative function comes to.

  A function of a language with exceptions and unchecked memory access has four
  kinds of outcome: it returns, it raises an exception, it leaves the region in
  which its behaviour is defined, or it is still running when the supply of
  events that drives it ends.  `Outcome` is the monad of the four.  Only the
  first lets the caller continue; only the second can be caught.
-/
import Mathlib.Data.List.Forall2
import Mathlib.Logic.Basic
import Mathlib.Tactic.Common

set_option autoImplicit false

namespace IbmmqExporter.Foundation

/-- The outcome of a call that may raise an `ε` and returns an `α`. -/
inductive Outcome (ε α : Type) where
  /-- the call returns -/
  | ok (a : α)
  /-- the call raises an exception -/
  | raised (e : ε)
  /-- the call performs an operation whose behaviour is undefined -/
  | undefined
  /-- the call has not ended when the supply of events is exhausted -/
  | pending
  deriving DecidableEq, Repr, Inhabited

namespace Outcome

variable {ε α β γ : Type}

/-- Continue after a return; every other outcome is the caller's too. -/
protected def bind (x : Outcome ε α) (f : α → Outcome ε β) : Outcome ε β :=
  match x with
  | ok a => f a
  | raised e => raised e
  | undefined => undefined
  | pending => pending

instance : Monad (Outcome ε) where
  pure := ok
  bind := Outcome.bind

@[simp] theorem pure_eq (a : α) : (pure a : Outcome ε α) = ok a := rfl

@[simp] theorem ok_bind (a : α) (f : α → Outcome ε β) : (ok a >>= f) = f a := rfl

@[simp] theorem raised_bind (e : ε) (f : α → Outcome ε β) :
    ((raised e : Outcome ε α) >>= f) = raised e := rfl

@[simp] theorem undefined_bind (f : α → Outcome ε β) :
    ((undefined : Outcome ε α) >>= f) = undefined := rfl

@[simp] theorem pending_bind (f : α → Outcome ε β) :
    ((pending : Outcome ε α) >>= f) = pending := rfl

@[simp] theorem map_ok (f : α → β) (a : α) :
    (f <$> (ok a : Outcome ε α)) = ok (f a) := rfl

@[simp] theorem map_raised (f : α → β) (e : ε) :
    (f <$> (raised e : Outcome ε α)) = raised e := rfl

@[simp] theorem map_pending (f : α → β) :
    (f <$> (pending : Outcome ε α)) = pending := rfl

@[simp] theorem map_undefined (f : α → β) :
    (f <$> (undefined : Outcome ε α)) = undefined := rfl

instance : LawfulMonad (Outcome ε) :=
  LawfulMonad.mk' _
    (by intro _ x; cases x <;> rfl)
    (by intro _ _ a f; rfl)
    (by intro _ _ _ x f g; cases x <;> rfl)

/-- A sequence returns exactly when both of its parts do. -/
theorem bind_eq_ok {x : Outcome ε α} {f : α → Outcome ε β} {b : β} :
    (x >>= f) = ok b ↔ ∃ a, x = ok a ∧ f a = ok b := by
  cases x <;> simp

/-- The call stays inside the region in which its behaviour is defined. -/
def Defined (x : Outcome ε α) : Prop := x ≠ undefined

instance (x : Outcome ε α) : Decidable x.Defined :=
  match x with
  | ok _ => .isTrue (by simp [Defined])
  | raised _ => .isTrue (by simp [Defined])
  | undefined => .isFalse (by simp [Defined])
  | pending => .isTrue (by simp [Defined])

@[simp] theorem defined_ok (a : α) : (ok a : Outcome ε α).Defined := by simp [Defined]

@[simp] theorem defined_raised (e : ε) : (raised e : Outcome ε α).Defined := by
  simp [Defined]

@[simp] theorem not_defined_undefined : ¬ (undefined : Outcome ε α).Defined := by
  simp [Defined]

/-- The call returns. -/
def Returns (x : Outcome ε α) : Prop := ∃ a, x = ok a

instance (x : Outcome ε α) : Decidable x.Returns :=
  match x with
  | ok a => .isTrue ⟨a, rfl⟩
  | raised _ => .isFalse (by simp [Returns])
  | undefined => .isFalse (by simp [Returns])
  | pending => .isFalse (by simp [Returns])

@[simp] theorem returns_ok (a : α) : (ok a : Outcome ε α).Returns := ⟨a, rfl⟩

@[simp] theorem not_returns_raised (e : ε) : ¬ (raised e : Outcome ε α).Returns := by
  simp [Returns]

@[simp] theorem not_returns_undefined : ¬ (undefined : Outcome ε α).Returns := by
  simp [Returns]

@[simp] theorem not_returns_pending : ¬ (pending : Outcome ε α).Returns := by
  simp [Returns]

/-- A sequence returns exactly when its head does and, from the head's value,
its tail does. -/
theorem returns_bind {x : Outcome ε α} {f : α → Outcome ε β} :
    (x >>= f).Returns ↔ ∃ a, x = ok a ∧ (f a).Returns := by
  cases x <;> simp

/-- A loop over a list returns exactly when it returns at every element. -/
theorem returns_mapM {f : α → Outcome ε β} {l : List α} :
    (l.mapM f).Returns ↔ ∀ a ∈ l, (f a).Returns := by
  induction l with
  | nil => simp
  | cons a l ih =>
      rw [List.mapM_cons, returns_bind]
      constructor
      · rintro ⟨b, hb, hrest⟩
        obtain ⟨bs, hbs, _⟩ := returns_bind.mp hrest
        intro c hc
        rcases List.mem_cons.mp hc with rfl | hc
        · exact ⟨b, hb⟩
        · exact ih.mp ⟨bs, hbs⟩ c hc
      · intro h
        obtain ⟨b, hb⟩ := h a List.mem_cons_self
        obtain ⟨bs, hbs⟩ := ih.mpr fun c hc => h c (List.mem_cons_of_mem a hc)
        refine ⟨b, hb, ?_⟩
        rw [hbs]
        exact returns_ok _

/-- What a loop over a list gives, element by element. -/
theorem forall₂_of_mapM {f : α → Outcome ε β} {l : List α} {bs : List β}
    (h : l.mapM f = ok bs) : List.Forall₂ (fun a b => f a = ok b) l bs := by
  induction l generalizing bs with
  | nil =>
      obtain rfl := Outcome.ok.inj h
      exact .nil
  | cons a l ih =>
      rw [List.mapM_cons] at h
      obtain ⟨b, hb, h⟩ := bind_eq_ok.mp h
      obtain ⟨bs', hbs', h⟩ := bind_eq_ok.mp h
      obtain rfl := Outcome.ok.inj h
      exact .cons hb (ih hbs')

theorem length_of_mapM {f : α → Outcome ε β} {l : List α} {bs : List β}
    (h : l.mapM f = ok bs) : bs.length = l.length :=
  (forall₂_of_mapM h).length_eq.symm

/-- What is seen of the results of a loop, when each is seen from what its call was for. -/
theorem map_of_mapM {f : α → Outcome ε β} {l : List α} {bs : List β} {g : β → γ} {c : α → γ}
    (h : l.mapM f = ok bs) (hg : ∀ a ∈ l, ∀ b, f a = ok b → g b = c a) :
    bs.map g = l.map c := by
  have hcalls := forall₂_of_mapM h
  clear h
  induction hcalls with
  | nil => rfl
  | @cons a b l bs hab _ ih =>
      rw [List.map_cons, List.map_cons, hg a List.mem_cons_self b hab,
        ih fun c hc => hg c (List.mem_cons_of_mem a hc)]

/-- What a loop gives, one of its calls has given. -/
theorem exists_of_mem_mapM {f : α → Outcome ε β} {l : List α} {bs : List β}
    (h : l.mapM f = ok bs) {b : β} (hb : b ∈ bs) : ∃ a ∈ l, f a = ok b := by
  have hcalls := forall₂_of_mapM h
  clear h
  induction hcalls with
  | nil => cases hb
  | cons hab _ ih =>
      rcases List.mem_cons.mp hb with rfl | hb
      · exact ⟨_, List.mem_cons_self, hab⟩
      · obtain ⟨a, ha, hab⟩ := ih hb
        exact ⟨a, List.mem_cons_of_mem _ ha, hab⟩

/-- Two loops give the same if and only if their calls do, element by element. -/
theorem mapM_eq_ok_iff {f f' : α → Outcome ε β} {C : α → Prop} {l : List α} {bs : List β}
    (h : ∀ a ∈ l, ∀ b, f' a = ok b → (f a = ok b ↔ C a)) (hok : l.mapM f' = ok bs) :
    l.mapM f = ok bs ↔ ∀ a ∈ l, C a := by
  induction l generalizing bs with
  | nil => simpa using hok
  | cons a l ih =>
      rw [List.mapM_cons] at hok
      obtain ⟨b, hb, hok⟩ := bind_eq_ok.mp hok
      obtain ⟨bs', hbs', hok⟩ := bind_eq_ok.mp hok
      obtain rfl := Outcome.ok.inj hok
      have hhead := h a List.mem_cons_self b hb
      have htail := ih (fun c hc => h c (List.mem_cons_of_mem a hc)) hbs'
      rw [List.forall_mem_cons, ← hhead, ← htail, List.mapM_cons]
      constructor
      · intro hrun
        obtain ⟨c, hc, hrun⟩ := bind_eq_ok.mp hrun
        obtain ⟨cs, hcs, hrun⟩ := bind_eq_ok.mp hrun
        obtain ⟨rfl, rfl⟩ := List.cons.inj (Outcome.ok.inj hrun)
        exact ⟨hc, hcs⟩
      · rintro ⟨ha, hl⟩
        rw [ha, hl]
        rfl

theorem returns_foldlM {f : β → α → Outcome ε β} {l : List α}
    (hf : ∀ a ∈ l, ∀ b, (f b a).Returns) (b : β) : (l.foldlM f b).Returns := by
  induction l generalizing b with
  | nil => exact returns_ok b
  | cons a l ih =>
      obtain ⟨b', hb'⟩ := hf a List.mem_cons_self b
      rw [List.foldlM_cons, hb']
      exact ih (fun c hc => hf c (List.mem_cons_of_mem a hc)) b'

/-- A loop whose turns return or not for the elements they are at. -/
theorem returns_foldlM_iff {f : β → α → Outcome ε β} {P : α → Prop} {l : List α}
    (hf : ∀ b a, (f b a).Returns ↔ P a) (b : β) : (l.foldlM f b).Returns ↔ ∀ a ∈ l, P a := by
  induction l generalizing b with
  | nil => simp
  | cons a l ih =>
      rw [List.foldlM_cons, returns_bind, List.forall_mem_cons]
      constructor
      · rintro ⟨b', hb', hrest⟩
        exact ⟨(hf b a).mp ⟨b', hb'⟩, (ih b').mp hrest⟩
      · rintro ⟨ha, hl⟩
        obtain ⟨b', hb'⟩ := (hf b a).mpr ha
        exact ⟨b', hb', (ih b').mpr hl⟩

/-- What every turn of a loop keeps holds behind the loop. -/
theorem foldlM_keeps {I : β → Prop} {f : β → α → Outcome ε β}
    (hf : ∀ b a b', I b → f b a = ok b' → I b') {l : List α} {b b' : β} (hb : I b)
    (h : l.foldlM f b = ok b') : I b' := by
  induction l generalizing b with
  | nil =>
      obtain rfl := Outcome.ok.inj h
      exact hb
  | cons a l ih =>
      rw [List.foldlM_cons] at h
      obtain ⟨c, hc, hrest⟩ := bind_eq_ok.mp h
      exact ih (hf b a c hb hc) hrest

/-- A loop that appends what the call gives at each element. -/
theorem foldlM_append (f : α → Outcome ε (List β)) (l : List α) (bs : List β) :
    l.foldlM (fun bs a => (bs ++ ·) <$> f a) bs =
      (fun bss => bs ++ bss.flatten) <$> l.mapM f := by
  induction l generalizing bs with
  | nil => simp
  | cons a l ih =>
      rw [List.foldlM_cons, List.mapM_cons]
      cases f a with
      | ok as =>
          simp only [map_ok, ok_bind, ih]
          cases l.mapM f <;> simp
      | raised e => rfl
      | undefined => rfl
      | pending => rfl

/-- A loop that appends the value of the call at each element. -/
theorem foldlM_concat (f : α → Outcome ε β) (l : List α) (bs : List β) :
    l.foldlM (fun bs a => (fun b => bs ++ [b]) <$> f a) bs = (bs ++ ·) <$> l.mapM f := by
  induction l generalizing bs with
  | nil => simp
  | cons a l ih =>
      rw [List.foldlM_cons, List.mapM_cons]
      cases f a with
      | ok b =>
          simp only [map_ok, ok_bind, ih]
          cases l.mapM f <;> simp
      | raised e => rfl
      | undefined => rfl
      | pending => rfl

theorem foldlM_congr {f f' : β → α → Outcome ε β} {l : List α}
    (h : ∀ a ∈ l, ∀ b, f b a = f' b a) (b : β) : l.foldlM f b = l.foldlM f' b := by
  induction l generalizing b with
  | nil => rfl
  | cons a l ih =>
      rw [List.foldlM_cons, List.foldlM_cons, h a List.mem_cons_self]
      exact bind_congr fun b' => ih (fun c hc => h c (List.mem_cons_of_mem a hc)) b'

/-- A loop over what elements of a list are turned into, as a loop over the list. -/
theorem foldlM_pmap {P : γ → Prop} {g : (c : γ) → P c → α} {f : β → α → Outcome ε β}
    {f' : β → γ → Outcome ε β} {l : List γ} (hl : ∀ c ∈ l, P c)
    (hf : ∀ b c (hc : P c), f b (g c hc) = f' b c) (b : β) :
    (l.pmap g hl).foldlM f b = l.foldlM f' b := by
  induction l generalizing b with
  | nil => rfl
  | cons c l ih =>
      rw [List.pmap_cons, List.foldlM_cons, List.foldlM_cons, hf]
      exact bind_congr fun b' => ih (fun d hd => hl d (List.mem_cons_of_mem c hd)) b'

/-- If a loop without some elements drops no failure, it fails as the whole loop
does. -/
theorem mapM_filter {q : α → Bool} {f : α → Outcome ε β} {l : List α}
    (h : ∀ a ∈ l, q a = false → (f a).Returns) :
    ∃ g : List β → List β, (l.filter q).mapM f = g <$> l.mapM f := by
  induction l with
  | nil => exact ⟨id, rfl⟩
  | cons a l ih =>
      obtain ⟨g, hg⟩ := ih fun c hc => h c (List.mem_cons_of_mem a hc)
      cases hq : q a with
      | false =>
          obtain ⟨b, hb⟩ := h a List.mem_cons_self hq
          refine ⟨fun bs => g bs.tail, ?_⟩
          rw [List.filter_cons_of_neg (by simp [hq]), hg, List.mapM_cons, hb, ok_bind]
          cases l.mapM f <;> rfl
      | true =>
          refine ⟨fun bs => bs.take 1 ++ g bs.tail, ?_⟩
          rw [List.filter_cons_of_pos hq, List.mapM_cons, List.mapM_cons, hg]
          cases f a with
          | ok b => cases l.mapM f <;> rfl
          | raised e => rfl
          | undefined => rfl
          | pending => rfl

/-- Mapping over the returned value changes no outcome. -/
@[simp] theorem returns_map {x : Outcome ε α} {f : α → β} :
    (f <$> x).Returns ↔ x.Returns := by
  cases x <;> simp

end Outcome

end IbmmqExporter.Foundation
