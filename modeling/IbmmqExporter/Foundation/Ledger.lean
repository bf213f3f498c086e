/-
  Foundation/Ledger.lean --- histories of resources that are acquired and released.

  A history is settled if every resource in it has been released exactly as often as
  it has been acquired, and at no point more often.  Histories are kept in books:
  the multiset of what is held, which a release takes from.

  WHAT THE FILE PROVES.  A history that the books accept releases nothing that is
  not held, and is settled when the books end up empty.
-/
import Mathlib.Data.List.Induction
import Mathlib.Data.Multiset.AddSub
import Mathlib.Data.Multiset.Count
import Mathlib.Tactic.Common

set_option autoImplicit false

namespace IbmmqExporter.Foundation

variable {κ : Type}

/-- What an event means for the resources. -/
inductive Entry (κ : Type) where
  | acquire (k : κ)
  | release (k : κ)
  | idle
  deriving DecidableEq, Repr

variable [DecidableEq κ]

/-- Every resource has been released as often as it has been acquired, and at no
point more often. -/
def Settled (l : List (Entry κ)) : Prop :=
  ∀ k, l.count (.acquire k) = l.count (.release k) ∧
    ∀ p, p <+: l → p.count (.release k) ≤ p.count (.acquire k)

/-- What is held after an entry; `none` if it releases what is not held. -/
def post (held : Multiset κ) : Entry κ → Option (Multiset κ)
  | .acquire k => some (k ::ₘ held)
  | .release k => if k ∈ held then some (held.erase k) else none
  | .idle => some held

/-- What is held after the entries, from nothing. -/
def balance (l : List (Entry κ)) : Option (Multiset κ) := l.foldlM post 0

@[simp] theorem balance_nil : balance ([] : List (Entry κ)) = some 0 := rfl

theorem balance_append (l l' : List (Entry κ)) :
    balance (l ++ l') = (balance l).bind fun held => l'.foldlM post held :=
  List.foldlM_append ..

/-- One more entry. -/
theorem balance_concat {l : List (Entry κ)} {held : Multiset κ} (h : balance l = some held)
    (e : Entry κ) : balance (l ++ [e]) = post held e := by
  rw [balance_append, h]
  exact bind_pure (post held e)

@[simp] theorem post_acquire (held : Multiset κ) (k : κ) :
    post held (.acquire k) = some (k ::ₘ held) := rfl

@[simp] theorem post_idle (held : Multiset κ) : post held .idle = some held := rfl

theorem post_release (held : Multiset κ) (k : κ) :
    post held (.release k) = if k ∈ held then some (held.erase k) else none := rfl

@[simp] theorem post_release_cons (held : Multiset κ) (k : κ) :
    post (k ::ₘ held) (.release k) = some held := by
  rw [post_release]
  rw [if_pos (Multiset.mem_cons_self k held), Multiset.erase_cons_head]

/-- The books of a beginning. -/
theorem balance_of_prefix {l p : List (Entry κ)} {held : Multiset κ}
    (h : balance l = some held) (hp : p <+: l) : ∃ held', balance p = some held' := by
  obtain ⟨l', rfl⟩ := hp
  rw [balance_append] at h
  rcases hb : balance p with _ | held'
  · rw [hb] at h
    cases h
  · exact ⟨held', rfl⟩

/-- What one entry does to the account of a resource. -/
theorem count_post {held held' : Multiset κ} {e : Entry κ} (h : post held e = some held')
    (k : κ) :
    held.count k + [e].count (.acquire k) = held'.count k + [e].count (.release k) := by
  cases e with
  | acquire j =>
      cases h
      by_cases hk : k = j
      · subst hk
        simp
      · have hk' : j ≠ k := Ne.symm hk
        simp [Multiset.count_cons_of_ne hk, hk']
  | release j =>
      rw [post_release] at h
      split at h
      · next hj =>
          cases h
          by_cases hk : k = j
          · subst hk
            have hcount : held.count k = (held.erase k).count k + 1 := by
              rw [← Multiset.count_cons_self, Multiset.cons_erase hj]
            rw [hcount, List.count_singleton_self, List.count_singleton, if_neg (by simp)]
          · have hk' : j ≠ k := Ne.symm hk
            simp [Multiset.count_erase_of_ne hk, hk']
      · cases h
  | idle =>
      cases h
      simp

/-- The account of a resource: acquired is released and held. -/
theorem count_of_balance {l : List (Entry κ)} {held : Multiset κ}
    (h : balance l = some held) (k : κ) :
    l.count (.acquire k) = l.count (.release k) + held.count k := by
  induction l using List.reverseRecOn generalizing held with
  | nil =>
      cases h
      simp
  | append_singleton l e ih =>
      obtain ⟨held', hl⟩ := balance_of_prefix h (List.prefix_append l [e])
      rw [balance_concat hl] at h
      have hstep := count_post h k
      have hrest := ih hl
      rw [List.count_append, List.count_append]
      omega

/-- Books that end up empty are those of a settled history. -/
theorem settled_of_balance {l : List (Entry κ)} (h : balance l = some 0) : Settled l := by
  intro k
  refine ⟨?_, ?_⟩
  · rw [count_of_balance h k, Multiset.count_zero, Nat.add_zero]
  · intro p hp
    obtain ⟨held, hheld⟩ := balance_of_prefix h hp
    rw [count_of_balance hheld k]
    exact Nat.le_add_right _ _

end IbmmqExporter.Foundation
