/-
  Foundation/Gauge.lean --- a gauge that is set by some and added to by others.

  In each round some values are set, one after the other, and then some amounts are
  added.

  WHAT THE FILE PROVIDES.  When the gauge always covers what has been added so far:
  when the last value set in a round covers what has been added before it.
-/
import Mathlib.Algebra.BigOperators.Group.List.Basic
import Mathlib.Algebra.Order.Monoid.Unbundled.Basic
import Mathlib.Data.List.Induction

set_option autoImplicit false

namespace IbmmqExporter.Foundation

/-- What is written to a gauge in a round: first some values are set, then some amounts
are added. -/
structure Round (M : Type) where
  sets : List M
  adds : List M

variable {M : Type} [AddCommMonoid M]

/-- The gauge after a round. -/
def Round.write (x : M) (round : Round M) : M := round.sets.getLast?.getD x + round.adds.sum

/-- The gauge after some rounds; it starts at zero. -/
def gaugeAfter (rounds : List (Round M)) : M := rounds.foldl Round.write 0

/-- What has been added in some rounds. -/
def addedIn (rounds : List (Round M)) : M := (rounds.map fun round => round.adds.sum).sum

theorem gaugeAfter_concat (rounds : List (Round M)) (round : Round M) :
    gaugeAfter (rounds ++ [round]) = round.write (gaugeAfter rounds) := by
  unfold gaugeAfter
  rw [List.foldl_append]
  rfl

theorem addedIn_concat (rounds : List (Round M)) (round : Round M) :
    addedIn (rounds ++ [round]) = addedIn rounds + round.adds.sum := by
  unfold addedIn
  rw [List.map_append, List.sum_append, List.map_singleton, List.sum_singleton]

variable [PartialOrder M] [AddRightMono M] [AddRightReflectLE M]

/-- One round: the gauge covers what has been added if what was set last does, or, if
nothing was set, if the gauge did before. -/
theorem addedIn_le_concat (rounds : List (Round M)) (round : Round M) :
    addedIn (rounds ++ [round]) ≤ gaugeAfter (rounds ++ [round]) ↔
      addedIn rounds ≤ round.sets.getLast?.getD (gaugeAfter rounds) := by
  rw [gaugeAfter_concat, addedIn_concat]
  exact add_le_add_iff_right _

/-- The gauge covers what has been added after each of the rounds if and only if in
each round the last value set covers what has been added before the round. -/
theorem covers_iff {β : Type} (round : β → Round M) (bs : List β) :
    (∀ done, done <+: bs → addedIn (done.map round) ≤ gaugeAfter (done.map round)) ↔
      ∀ done b, done ++ [b] <+: bs → ∀ v, (round b).sets.getLast? = some v →
        addedIn (done.map round) ≤ v := by
  have hconcat (done : List β) (b : β) :
      addedIn ((done ++ [b]).map round) ≤ gaugeAfter ((done ++ [b]).map round) ↔
        addedIn (done.map round) ≤
          (round b).sets.getLast?.getD (gaugeAfter (done.map round)) := by
    rw [List.map_append, List.map_singleton]
    exact addedIn_le_concat _ _
  constructor
  · intro h done b hdone v hv
    have hround := (hconcat done b).mp (h _ hdone)
    rw [hv] at hround
    exact hround
  · intro h done hdone
    induction done using List.reverseRecOn with
    | nil => exact le_refl _
    | append_singleton done b ih =>
        rw [hconcat]
        cases hlast : (round b).sets.getLast? with
        | none => exact ih ((List.prefix_append done [b]).trans hdone)
        | some v => exact h done b hdone v hlast

end IbmmqExporter.Foundation
