/-
  Pcf/MqiOrder.lean --- `parse_mqi_stats` and the order of the parameters.

  Siblings may change places at every level of a parameter tree.  A number or an
  integer list assigns its field, and a group adds to six of them, so that a group in
  front of the number is forgotten and one behind it is not.

  WHAT THE FILE PROVES.  In a tree in which no id occurs twice among the parameters of
  a level that are not groups, the number fields do not depend on the order if and only
  if no field that is given beside groups is given anything by them: then a field is the
  sum of what is given to it anywhere in the tree.
-/
import IbmmqExporter.Pcf.MqiFields
import Mathlib.Algebra.BigOperators.Group.List.Lemmas
import Mathlib.Data.List.Perm.Basic

set_option autoImplicit false

namespace IbmmqExporter.Pcf

open Foundation

/-! ## Order -/

/-- The same tree, with the siblings of some levels in another order. -/
inductive Reordered : List PCFParameter → List PCFParameter → Prop where
  | nil : Reordered [] []
  | cons (p : PCFParameter) {ps qs : List PCFParameter} :
      Reordered ps qs → Reordered (p :: ps) (p :: qs)
  | swap (p q : PCFParameter) (ps : List PCFParameter) :
      Reordered (p :: q :: ps) (q :: p :: ps)
  | members (id type : Int32) {ms ns : List PCFParameter} (ps : List PCFParameter) :
      Reordered ms ns → Reordered (⟨id, type, .group ms⟩ :: ps) (⟨id, type, .group ns⟩ :: ps)
  | trans {ps qs rs : List PCFParameter} : Reordered ps qs → Reordered qs rs → Reordered ps rs

namespace Reordered

variable {ps qs : List PCFParameter}

theorem refl (ps : List PCFParameter) : Reordered ps ps := by
  induction ps with
  | nil => exact .nil
  | cons p ps ih => exact .cons p ih

theorem of_perm (h : ps.Perm qs) : Reordered ps qs := by
  induction h with
  | nil => exact .nil
  | cons p _ ih => exact .cons p ih
  | swap p q ps => exact .swap q p ps
  | trans _ _ ih₁ ih₂ => exact .trans ih₁ ih₂

theorem append_left (rs : List PCFParameter) (h : Reordered ps qs) :
    Reordered (rs ++ ps) (rs ++ qs) := by
  induction rs with
  | nil => exact h
  | cons r rs ih => exact .cons r ih

/-- Any parameter may be moved to the front or to the end. -/
theorem of_mem {p : PCFParameter} (h : p ∈ ps) :
    ∃ rest, Reordered ps (p :: rest) ∧ Reordered ps (rest ++ [p]) ∧
      ∀ q ∈ ps, q = p ∨ q ∈ rest := by
  obtain ⟨before, after, rfl⟩ := List.append_of_mem h
  have hfront : (before ++ p :: after).Perm (p :: (before ++ after)) := List.perm_middle
  refine ⟨before ++ after, of_perm hfront, ?_, ?_⟩
  · exact of_perm (hfront.trans (List.perm_append_singleton _ _).symm)
  · intro q hq
    exact List.mem_cons.mp (hfront.mem_iff.mp hq)

/-- The groups of a reordered list are groups of the list with reordered members. -/
theorem group_mem (h : Reordered ps qs) {id type : Int32} {ns : List PCFParameter}
    (hns : ⟨id, type, .group ns⟩ ∈ qs) :
    ∃ ms, ⟨id, type, .group ms⟩ ∈ ps ∧ Reordered ms ns := by
  induction h generalizing ns with
  | nil => cases hns
  | cons p _ ih =>
      rcases List.mem_cons.mp hns with rfl | hns
      · exact ⟨ns, List.mem_cons_self, refl ns⟩
      · obtain ⟨ms, hms, h⟩ := ih hns
        exact ⟨ms, List.mem_cons_of_mem p hms, h⟩
  | swap p q ps =>
      refine ⟨ns, ?_, refl ns⟩
      simp only [List.mem_cons] at hns ⊢
      tauto
  | members id' type' ps hm _ =>
      rcases List.mem_cons.mp hns with heq | hns
      · cases heq
        exact ⟨_, List.mem_cons_self, hm⟩
      · exact ⟨ns, List.mem_cons_of_mem _ hns, refl ns⟩
  | trans _ _ ih₁ ih₂ =>
      obtain ⟨ms, hms, h₂⟩ := ih₂ hns
      obtain ⟨ls, hls, h₁⟩ := ih₁ hms
      exact ⟨ls, hls, .trans h₁ h₂⟩

/-- The levels of a reordered tree are reordered levels of the tree. -/
theorem level (h : Reordered ps qs) {qs' : List PCFParameter} (hqs : Level qs qs') :
    ∃ ps', Level ps ps' ∧ Reordered ps' qs' := by
  induction hqs generalizing ps with
  | self qs => exact ⟨ps, .self ps, h⟩
  | nested hmem _ ih =>
      obtain ⟨ls, hls, hms⟩ := h.group_mem hmem
      obtain ⟨ps', hps', h'⟩ := ih hms
      exact ⟨ps', .nested hls hps', h'⟩

/-- What is made of the parameters one by one, groups aside, is made of a reordered
list as well. -/
theorem filterMap_perm {β : Type} {f : PCFParameter → Option β}
    (hf : ∀ id type ms, f ⟨id, type, .group ms⟩ = none) (h : Reordered ps qs) :
    (ps.filterMap f).Perm (qs.filterMap f) := by
  induction h with
  | nil => exact .refl _
  | cons p _ ih =>
      rw [List.filterMap_cons, List.filterMap_cons]
      split
      · exact ih
      · exact ih.cons _
  | swap p q ps => exact (List.Perm.swap q p ps).filterMap f
  | members id type ps _ _ => simp [hf]
  | trans _ _ ih₁ ih₂ => exact ih₁.trans ih₂

end Reordered

/-! ## What a field is given -/

/- What a field is given anywhere in a parameter or in the parameters of a list, through
the groups that reach it. -/
mutual
/-- What a parameter gives a 32-bit field. -/
def PCFParameter.contribution (c : MqiCounter) : PCFParameter → Int32
  | ⟨_, _, .group ms⟩ => if c ∈ mqiNestedCounters then contributions c ms else 0
  | p => (p.givenCounter c).getD 0
/-- What the parameters of a list give a 32-bit field, all together. -/
def contributions (c : MqiCounter) : List PCFParameter → Int32
  | [] => 0
  | p :: ps => p.contribution c + contributions c ps
end

theorem contributions_eq_sum (c : MqiCounter) (ps : List PCFParameter) :
    contributions c ps = (ps.map (PCFParameter.contribution c)).sum := by
  induction ps with
  | nil => simp [contributions]
  | cons p ps ih => simp [contributions, ih]

theorem Reordered.contributions_eq {ps qs : List PCFParameter} (h : Reordered ps qs)
    (c : MqiCounter) : contributions c ps = contributions c qs := by
  induction h with
  | nil => rfl
  | cons p _ ih => rw [contributions, contributions, ih]
  | swap p q ps => simp only [contributions, add_left_comm]
  | members id type ps _ ih =>
      simp only [contributions, PCFParameter.contribution, ih]
  | trans _ _ ih₁ ih₂ => exact ih₁.trans ih₂

/-! ## Ids -/

/-- The id of a parameter that is not a group. -/
def PCFParameter.siblingId : PCFParameter → Option Int32
  | ⟨_, _, .group _⟩ => none
  | p => some p.parameter

/-- No id occurs twice among the parameters of a level that are not groups. -/
def DistinctIds (ps : List PCFParameter) : Prop :=
  ∀ qs, Level ps qs → (qs.filterMap PCFParameter.siblingId).Nodup

/-- The ids that lead to a 32-bit field: one for each. -/
def mqiCounterIds : List (Int32 × MqiCounter) := mqiListCounters ++ mqiIntCounters

theorem mqiCounterIds_unique {id id' : Int32} {c : MqiCounter} (h : (id, c) ∈ mqiCounterIds)
    (h' : (id', c) ∈ mqiCounterIds) : id = id' := by
  have hall : ∀ e ∈ mqiCounterIds, ∀ e' ∈ mqiCounterIds, e.2 = e'.2 → e.1 = e'.1 := by decide
  exact hall _ h _ h' rfl

theorem mqiListTotals_unique {id id' : Int32} {t : MqiTotal} (h : (id, t) ∈ mqiListTotals)
    (h' : (id', t) ∈ mqiListTotals) : id = id' := by
  have hall : ∀ e ∈ mqiListTotals, ∀ e' ∈ mqiListTotals, e.2 = e'.2 → e.1 = e'.1 := by decide
  exact hall _ h _ h' rfl

/-- A parameter that gives a value to a 32-bit field has the field's id. -/
theorem givenCounter_id {c : MqiCounter} {p : PCFParameter} {v : Int32}
    (h : p.givenCounter c = some v) :
    p.siblingId = some p.parameter ∧ (p.parameter, c) ∈ mqiCounterIds := by
  obtain ⟨id, type, value⟩ := p
  cases value with
  | intList vs =>
      simp only [PCFParameter.givenCounter, Option.ite_none_right_eq_some] at h
      exact ⟨rfl, List.mem_append_left _ (lookup_mem h.1)⟩
  | int32 u =>
      simp only [PCFParameter.givenCounter, Option.ite_none_right_eq_some] at h
      exact ⟨rfl, List.mem_append_right _ (lookup_mem h.1)⟩
  | group ms => cases h
  | string s => cases h
  | monostate => cases h
  | int64 u => cases h
  | stringList ss => cases h

theorem givenTotal_id {t : MqiTotal} {p : PCFParameter} {v : Int64}
    (h : p.givenTotal t = some v) :
    p.siblingId = some p.parameter ∧ (p.parameter, t) ∈ mqiListTotals := by
  obtain ⟨id, type, value⟩ := p
  cases value with
  | intList vs =>
      simp only [PCFParameter.givenTotal, Option.ite_none_right_eq_some] at h
      exact ⟨rfl, lookup_mem h.1⟩
  | int32 u => cases h
  | group ms => cases h
  | string s => cases h
  | monostate => cases h
  | int64 u => cases h
  | stringList ss => cases h

/-- With distinct ids at most one parameter gives a field a value, if all that do have
the same id. -/
theorem length_filterMap_le_one {β : Type} {f : PCFParameter → Option β}
    {ps : List PCFParameter} (hids : (ps.filterMap PCFParameter.siblingId).Nodup)
    (hf : ∀ p q v w, f p = some v → f q = some w →
      p.siblingId = some p.parameter ∧ q.siblingId = some p.parameter) :
    (ps.filterMap f).length ≤ 1 := by
  induction ps with
  | nil => simp
  | cons p ps ih =>
      cases hp : f p with
      | none =>
          rw [List.filterMap_cons_none hp]
          apply ih
          rw [List.filterMap_cons] at hids
          split at hids
          · exact hids
          · exact (List.nodup_cons.mp hids).2
      | some v =>
          have hnone : ps.filterMap f = [] := by
            rw [List.filterMap_eq_nil_iff]
            intro q hq
            rcases hw : f q with _ | w
            · rfl
            · obtain ⟨hpid, hqid⟩ := hf p q v w hp hw
              rw [List.filterMap_cons_some hpid, List.nodup_cons] at hids
              exact absurd (List.mem_filterMap.mpr ⟨q, hq, hqid⟩) hids.1
          rw [List.filterMap_cons_some hp, hnone]
          simp

section Distinct

variable {ps : List PCFParameter} (hids : (ps.filterMap PCFParameter.siblingId).Nodup)
include hids

theorem length_givenCounter_le_one (c : MqiCounter) :
    (ps.filterMap (PCFParameter.givenCounter c)).length ≤ 1 := by
  refine length_filterMap_le_one hids ?_
  intro p q v w hp hq
  obtain ⟨hpid, hpmem⟩ := givenCounter_id hp
  obtain ⟨hqid, hqmem⟩ := givenCounter_id hq
  rw [mqiCounterIds_unique hqmem hpmem] at hqid
  exact ⟨hpid, hqid⟩

theorem length_givenTotal_le_one (t : MqiTotal) :
    (ps.filterMap (PCFParameter.givenTotal t)).length ≤ 1 := by
  refine length_filterMap_le_one hids ?_
  intro p q v w hp hq
  obtain ⟨hpid, hpmem⟩ := givenTotal_id hp
  obtain ⟨hqid, hqmem⟩ := givenTotal_id hq
  rw [mqiListTotals_unique hqmem hpmem] at hqid
  exact ⟨hpid, hqid⟩

end Distinct

/-! ## The sum -/

/-- Wherever a level gives the field a value beside groups, each of the groups gives it
nothing. -/
def UnmixedAt (c : MqiCounter) (ps : List PCFParameter) : Prop :=
  ∀ qs, Level ps qs → (∃ p ∈ qs, (p.givenCounter c).isSome) →
    ∀ id type ms, ⟨id, type, .group ms⟩ ∈ qs → contributions c ms = 0

/-- No level of the tree mixes a value for a field and groups that give it something. -/
def Unmixed (ps : List PCFParameter) : Prop := ∀ c ∈ mqiNestedCounters, UnmixedAt c ps

theorem DistinctIds.members {ps ms : List PCFParameter} {id type : Int32}
    (h : DistinctIds ps) (hms : ⟨id, type, .group ms⟩ ∈ ps) : DistinctIds ms :=
  fun qs hqs => h qs (.nested hms hqs)

theorem UnmixedAt.members {c : MqiCounter} {ps ms : List PCFParameter} {id type : Int32}
    (h : UnmixedAt c ps) (hms : ⟨id, type, .group ms⟩ ∈ ps) : UnmixedAt c ms :=
  fun qs hqs => h qs (.nested hms hqs)

/-- A parameter that is not a group adds nothing. -/
theorem value_counterWrite (c : MqiCounter) (p : PCFParameter)
    (hgroup : ∀ id type ms, p = ⟨id, type, .group ms⟩ → c ∈ mqiNestedCounters →
      (parseMqiStats ms).counter c = contributions c ms) :
    (p.counterWrite c).value = p.contribution c := by
  obtain ⟨id, type, value⟩ := p
  unfold PCFParameter.counterWrite
  cases value with
  | group ms =>
      by_cases hc : c ∈ mqiNestedCounters
      · simp [PCFParameter.givenCounter, PCFParameter.nestedCounter, PCFParameter.contribution,
          Write.value, hc, hgroup id type ms rfl hc]
      · simp [PCFParameter.givenCounter, PCFParameter.nestedCounter, PCFParameter.contribution,
          Write.value, hc]
  | intList vs =>
      simp only [PCFParameter.givenCounter, PCFParameter.nestedCounter,
        PCFParameter.contribution]
      split_ifs <;> simp [Write.value]
  | int32 v =>
      simp only [PCFParameter.givenCounter, PCFParameter.nestedCounter,
        PCFParameter.contribution]
      split_ifs <;> simp [Write.value]
  | string s => rfl
  | monostate => rfl
  | int64 v => rfl
  | stringList ss => rfl

/-- Without mixing, a 32-bit field of the result is the sum of what it is given anywhere
in the tree. -/
theorem counter_eq_contributions {ps : List PCFParameter} {c : MqiCounter}
    (hids : DistinctIds ps) (hmix : c ∈ mqiNestedCounters → UnmixedAt c ps) :
    (parseMqiStats ps).counter c = contributions c ps := by
  induction ps using levels_induction with
  | h ps ih =>
      have hmembers : ∀ id type ms, ⟨id, type, .group ms⟩ ∈ ps → c ∈ mqiNestedCounters →
          (parseMqiStats ms).counter c = contributions c ms := by
        intro id type ms hms hc
        exact ih id type ms hms (hids.members hms) fun _ => (hmix hc).members hms
      have hone : ((ps.map (PCFParameter.counterWrite c)).filterMap Write.assigned).length ≤ 1 := by
        rw [filterMap_assigned_counterWrite]
        exact length_givenCounter_le_one (hids ps (.self ps)) c
      have hzero : ∀ v, Write.assign v ∈ ps.map (PCFParameter.counterWrite c) →
          ∀ a, Write.add a ∈ ps.map (PCFParameter.counterWrite c) → a = 0 := by
        intro v hv a ha
        have hgiven : ∃ p ∈ ps, (p.givenCounter c).isSome := by
          rw [← Write.mem_filterMap_assigned, filterMap_assigned_counterWrite] at hv
          obtain ⟨p, hp, hpv⟩ := List.mem_filterMap.mp hv
          exact ⟨p, hp, by simp [hpv]⟩
        obtain ⟨p, hp, -, rfl⟩ := mem_counterWrite_add.mp ha
        rcases nestedCounter_eq_zero_or c p with h | ⟨hc, id, type, ms, rfl, h⟩
        · exact h
        · rw [h, hmembers id type ms hp hc]
          exact hmix hc ps (.self ps) hgiven id type ms hp
      rw [parseMqiStats_counter, Write.run_eq_sum hone hzero, contributions_eq_sum, List.map_map]
      congr 1
      apply List.map_congr_left
      intro p hp
      refine value_counterWrite c p ?_
      rintro id type ms rfl
      exact hmembers id type ms hp

/-- A 64-bit field of the result is the sum of what the list gives it. -/
theorem total_eq_sum {ps : List PCFParameter} (hids : DistinctIds ps) (t : MqiTotal) :
    (parseMqiStats ps).total t = (ps.filterMap (PCFParameter.givenTotal t)).sum := by
  have hzero : ∀ a, Write.add a ∈ ps.map (PCFParameter.totalWrite t) → a = 0 :=
    fun _ => mem_totalWrite_add
  have hone : ((ps.map (PCFParameter.totalWrite t)).filterMap Write.assigned).length ≤ 1 := by
    rw [filterMap_assigned_totalWrite]
    exact length_givenTotal_le_one (hids ps (.self ps)) t
  rw [parseMqiStats_total, Write.run_eq_sum hone fun _ _ => hzero, Write.sum_of_assigns hzero,
    filterMap_assigned_totalWrite]

/-! ## Independence of the order -/

/-- The number fields are the same in every order of siblings, at all levels. -/
def OrderFree (ps : List PCFParameter) : Prop :=
  ∀ qs, Reordered ps qs →
    (∀ c, (parseMqiStats qs).counter c = (parseMqiStats ps).counter c) ∧
      ∀ t, (parseMqiStats qs).total t = (parseMqiStats ps).total t

/-- A 32-bit field is the same in every order of siblings, at all levels. -/
def OrderFreeAt (c : MqiCounter) (ps : List PCFParameter) : Prop :=
  ∀ qs, Reordered ps qs → (parseMqiStats qs).counter c = (parseMqiStats ps).counter c

theorem DistinctIds.reordered {ps qs : List PCFParameter} (h : DistinctIds ps)
    (hqs : Reordered ps qs) : DistinctIds qs := by
  intro qs' hlevel
  obtain ⟨ps', hps', h'⟩ := hqs.level hlevel
  have hperm := h'.filterMap_perm (f := PCFParameter.siblingId) fun _ _ _ => rfl
  exact hperm.nodup_iff.mp (h ps' hps')

theorem UnmixedAt.reordered {c : MqiCounter} {ps qs : List PCFParameter} (h : UnmixedAt c ps)
    (hqs : Reordered ps qs) : UnmixedAt c qs := by
  rintro qs' hlevel ⟨p, hp, hgiven⟩ id type ns hns
  obtain ⟨ps', hps', h'⟩ := hqs.level hlevel
  have hperm := h'.filterMap_perm (f := PCFParameter.givenCounter c) fun _ _ _ => rfl
  obtain ⟨v, hv⟩ := Option.isSome_iff_exists.mp hgiven
  obtain ⟨p', hp', hv'⟩ :=
    List.mem_filterMap.mp (hperm.mem_iff.mpr (List.mem_filterMap.mpr ⟨p, hp, hv⟩))
  obtain ⟨ms, hms, hreordered⟩ := h'.group_mem hns
  rw [← hreordered.contributions_eq c]
  exact h ps' hps' ⟨p', hp', by simp [hv']⟩ id type ms hms

/-- Without mixing the order does not matter. -/
theorem orderFree_of_unmixed {ps : List PCFParameter} (hids : DistinctIds ps)
    (hmix : Unmixed ps) : OrderFree ps := by
  intro qs hqs
  have hids' := hids.reordered hqs
  refine ⟨?_, ?_⟩
  · intro c
    rw [counter_eq_contributions hids' fun hc => (hmix c hc).reordered hqs,
      counter_eq_contributions hids (hmix c), hqs.contributions_eq]
  · intro t
    rw [total_eq_sum hids', total_eq_sum hids]
    exact (hqs.filterMap_perm fun _ _ _ => rfl).symm.sum_eq

/-- A group at the end of a list adds what it holds. -/
theorem counter_concat_group {c : MqiCounter} (hc : c ∈ mqiNestedCounters)
    (ps : List PCFParameter) (id type : Int32) (ms : List PCFParameter) :
    (parseMqiStats (ps ++ [⟨id, type, .group ms⟩])).counter c =
      (parseMqiStats ps).counter c + (parseMqiStats ms).counter c := by
  rw [parseMqiStats_counter, parseMqiStats_counter ps, List.map_append, List.map_singleton,
    Write.run_concat]
  simp [PCFParameter.counterWrite, PCFParameter.givenCounter, PCFParameter.nestedCounter,
    Write.apply, hc]

/-- Where the order does not matter at the top it does not matter inside the groups. -/
theorem OrderFreeAt.members {c : MqiCounter} (hc : c ∈ mqiNestedCounters)
    {ps ms : List PCFParameter} {id type : Int32} (h : OrderFreeAt c ps)
    (hms : ⟨id, type, .group ms⟩ ∈ ps) : OrderFreeAt c ms := by
  intro ns hns
  obtain ⟨rest, -, hlast, -⟩ := Reordered.of_mem hms
  have hchanged : Reordered ps (rest ++ [⟨id, type, .group ns⟩]) :=
    hlast.trans ((Reordered.members id type [] hns).append_left rest)
  have heq := (h _ hchanged).trans (h _ hlast).symm
  rw [counter_concat_group hc, counter_concat_group hc] at heq
  exact add_left_cancel heq

/-- Where the order does not matter, no level mixes values and groups that give
something. -/
theorem OrderFreeAt.unmixedAt {c : MqiCounter} (hc : c ∈ mqiNestedCounters)
    {ps : List PCFParameter} (hids : DistinctIds ps) (h : OrderFreeAt c ps) :
    UnmixedAt c ps := by
  induction ps using levels_induction with
  | h ps ih =>
      have hmembers : ∀ id type ms, ⟨id, type, .group ms⟩ ∈ ps → UnmixedAt c ms :=
        fun id type ms hms => ih id type ms hms (hids.members hms) (h.members hc hms)
      intro qs hlevel hgiven id type ms hms
      cases hlevel with
      | nested hgroup hlevel => exact hmembers _ _ _ hgroup qs hlevel hgiven id type ms hms
      | self =>
          rw [← counter_eq_contributions (hids.members hms) fun _ => hmembers id type ms hms]
          -- the group may be moved to the front or to the end
          obtain ⟨rest, hfront, hlast, hrest⟩ := Reordered.of_mem hms
          have hrun := (h _ hfront).trans (h _ hlast).symm
          have hwrite : PCFParameter.counterWrite c ⟨id, type, .group ms⟩ =
              .add ((parseMqiStats ms).counter c) := by
            simp [PCFParameter.counterWrite, PCFParameter.givenCounter,
              PCFParameter.nestedCounter, hc]
          rw [parseMqiStats_counter, parseMqiStats_counter, List.map_append, List.map_cons,
            List.map_singleton, hwrite] at hrun
          obtain ⟨p, hp, hsome⟩ := hgiven
          obtain ⟨v, hv⟩ := Option.isSome_iff_exists.mp hsome
          have hp' : p ∈ rest := by
            rcases hrest p hp with rfl | hp
            · cases hv
            · exact hp
          have hassign : Write.assign v ∈ rest.map (PCFParameter.counterWrite c) := by
            rw [← Write.mem_filterMap_assigned, filterMap_assigned_counterWrite]
            exact List.mem_filterMap.mpr ⟨p, hp', hv⟩
          exact Write.add_eq_zero hassign 0 hrun

/-- In a tree with distinct ids the number fields do not depend on the order if and only
if no level mixes a value for a field and groups that give it something. -/
theorem orderFree_iff {ps : List PCFParameter} (hids : DistinctIds ps) :
    OrderFree ps ↔ Unmixed ps := by
  constructor
  · intro h c hc
    exact OrderFreeAt.unmixedAt hc hids fun qs hqs => (h qs hqs).1 c
  · exact orderFree_of_unmixed hids

/-- Five puts, and three in a group behind them. -/
def putsBesideGroup : List PCFParameter :=
  [⟨mqiamoPuts, mqcftInteger, .int32 5⟩,
   ⟨8010, mqcftGroup, .group [⟨mqiamoPuts, mqcftInteger, .int32 3⟩]⟩]

theorem distinctIds_putsBesideGroup : DistinctIds putsBesideGroup := by
  intro qs hlevel
  cases hlevel with
  | self => exact List.nodup_singleton mqiamoPuts
  | nested hgroup hlevel =>
      simp only [putsBesideGroup, List.mem_cons, List.not_mem_nil, or_false,
        PCFParameter.mk.injEq, PCFValue.group.injEq] at hgroup
      obtain ⟨-, -, h⟩ | ⟨-, -, rfl⟩ := hgroup
      · cases h
      · cases hlevel with
        | self => exact List.nodup_singleton mqiamoPuts
        | nested hgroup _ => simp at hgroup

theorem orderFree_iff_putsBesideGroup :
    DistinctIds putsBesideGroup ∧ (OrderFree putsBesideGroup ↔ Unmixed putsBesideGroup) :=
  ⟨distinctIds_putsBesideGroup, orderFree_iff distinctIds_putsBesideGroup⟩

/-- Eight puts become five when the group comes first. -/
theorem not_orderFree : ¬ ∀ ps, DistinctIds ps → OrderFree ps := by
  intro h
  have hswap := h putsBesideGroup distinctIds_putsBesideGroup _ (.swap _ _ [])
  exact absurd (hswap.1 .puts) (by decide)

end IbmmqExporter.Pcf
