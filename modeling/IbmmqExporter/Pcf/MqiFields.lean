/-
  Pcf/MqiFields.lean --- what `parse_mqi_stats` makes of one number field.

  To a number field of `MQIStatistics` every parameter is a write: a number or an
  integer list with the field's id assigns it, a nested group adds to it, if it is one
  of the six that are taken over from groups.

  WHAT THE FILE PROVES.  The field of the result is what the writes of the parameters
  leave.  Of a list of groups it is the sum over the groups if it is one of the six;
  any other field is lost, and is the sum only when the groups give it values that add
  up to zero.
-/
import IbmmqExporter.Foundation.Accumulator
import IbmmqExporter.Pcf.Statistics

set_option autoImplicit false

namespace IbmmqExporter.Pcf

open Foundation

/-! ## Levels -/

/-- `qs` is the list `ps` or the members of a group somewhere in it. -/
inductive Level : List PCFParameter → List PCFParameter → Prop where
  | self (ps : List PCFParameter) : Level ps ps
  | nested {ps ms qs : List PCFParameter} {id type : Int32} :
      ⟨id, type, .group ms⟩ ∈ ps → Level ms qs → Level ps qs

/-- Induction over trees: what holds of a list if it holds of the members of its
groups. -/
@[elab_as_elim]
theorem levels_induction {P : List PCFParameter → Prop}
    (h : ∀ ps, (∀ id type ms, ⟨id, type, .group ms⟩ ∈ ps → P ms) → P ps)
    (ps : List PCFParameter) : P ps := by
  apply h
  intro id type ms hms
  have hsize := List.sizeOf_lt_of_mem hms
  exact levels_induction h ms
termination_by sizeOf ps
decreasing_by
  simp only [PCFParameter.mk.sizeOf_spec, PCFValue.group.sizeOf_spec] at hsize
  omega

/-! ## Writes -/

/-- The value that a parameter gives a 32-bit field. -/
def PCFParameter.givenCounter (c : MqiCounter) : PCFParameter → Option Int32
  | ⟨id, _, .intList vs⟩ => if mqiListCounters.lookup id = some c then some (sum32 vs) else none
  | ⟨id, _, .int32 v⟩ => if mqiIntCounters.lookup id = some c then some v else none
  | _ => none

/-- The value that a parameter gives a 64-bit field. -/
def PCFParameter.givenTotal (t : MqiTotal) : PCFParameter → Option Int64
  | ⟨id, _, .intList vs⟩ => if mqiListTotals.lookup id = some t then some (sum64 vs) else none
  | _ => none

/-- What is added to a 32-bit field for a parameter. -/
def PCFParameter.nestedCounter (c : MqiCounter) : PCFParameter → Int32
  | ⟨_, _, .group ms⟩ => if c ∈ mqiNestedCounters then (parseMqiStats ms).counter c else 0
  | _ => 0

/-- What a parameter writes to a 32-bit field. -/
def PCFParameter.counterWrite (c : MqiCounter) (p : PCFParameter) : Write Int32 :=
  match p.givenCounter c with
  | some v => .assign v
  | none => .add (p.nestedCounter c)

/-- What a parameter writes to a 64-bit field. -/
def PCFParameter.totalWrite (t : MqiTotal) (p : PCFParameter) : Write Int64 :=
  match p.givenTotal t with
  | some v => .assign v
  | none => .add 0

@[simp] theorem assigned_counterWrite (c : MqiCounter) (p : PCFParameter) :
    (p.counterWrite c).assigned = p.givenCounter c := by
  unfold PCFParameter.counterWrite
  split
  · next h => simp [Write.assigned, h]
  · next h => simp [Write.assigned, h]

@[simp] theorem assigned_totalWrite (t : MqiTotal) (p : PCFParameter) :
    (p.totalWrite t).assigned = p.givenTotal t := by
  unfold PCFParameter.totalWrite
  split
  · next h => simp [Write.assigned, h]
  · next h => simp [Write.assigned, h]

/-- Only groups add, and only to the fields that are taken over from them. -/
theorem nestedCounter_eq_zero_or (c : MqiCounter) (p : PCFParameter) :
    p.nestedCounter c = 0 ∨
      c ∈ mqiNestedCounters ∧ ∃ id type ms, p = ⟨id, type, .group ms⟩ ∧
        p.nestedCounter c = (parseMqiStats ms).counter c := by
  unfold PCFParameter.nestedCounter
  split
  · next id type ms =>
      split_ifs with hc
      · exact .inr ⟨hc, id, type, ms, rfl, rfl⟩
      · exact .inl rfl
  · exact .inl rfl

/-- What is added to a field comes from a parameter that does not assign it. -/
theorem mem_counterWrite_add {ps : List PCFParameter} {c : MqiCounter} {a : Int32} :
    Write.add a ∈ ps.map (PCFParameter.counterWrite c) ↔
      ∃ p ∈ ps, p.givenCounter c = none ∧ p.nestedCounter c = a := by
  rw [List.mem_map]
  refine exists_congr fun p => and_congr_right fun _ => ?_
  unfold PCFParameter.counterWrite
  split
  · next h => simp [h]
  · next h => simp [h]

theorem mem_totalWrite_add {ps : List PCFParameter} {t : MqiTotal} {a : Int64}
    (ha : Write.add a ∈ ps.map (PCFParameter.totalWrite t)) : a = 0 := by
  obtain ⟨p, -, hp⟩ := List.mem_map.mp ha
  unfold PCFParameter.totalWrite at hp
  split at hp
  · cases hp
  · exact (Write.add.inj hp).symm

theorem filterMap_assigned_counterWrite (c : MqiCounter) (ps : List PCFParameter) :
    (ps.map (PCFParameter.counterWrite c)).filterMap Write.assigned =
      ps.filterMap (PCFParameter.givenCounter c) := by
  rw [List.filterMap_map]
  congr 1
  funext p
  simp

theorem filterMap_assigned_totalWrite (t : MqiTotal) (ps : List PCFParameter) :
    (ps.map (PCFParameter.totalWrite t)).filterMap Write.assigned =
      ps.filterMap (PCFParameter.givenTotal t) := by
  rw [List.filterMap_map]
  congr 1
  funext p
  simp

theorem lookup_mem {α β : Type} [BEq α] [LawfulBEq α] {l : List (α × β)} {a : α} {b : β}
    (h : l.lookup a = some b) : (a, b) ∈ l := by
  obtain ⟨before, after, rfl, -⟩ := List.lookup_eq_some_iff.mp h
  simp

/-- No id leads to a 32-bit and to a 64-bit field. -/
theorem mqiListCounters_of_total {id : Int32} {t : MqiTotal}
    (h : mqiListTotals.lookup id = some t) : mqiListCounters.lookup id = none := by
  have hall : ∀ e ∈ mqiListTotals, mqiListCounters.lookup e.1 = none := by decide
  exact hall _ (lookup_mem h)

/-- One parameter writes to a 32-bit field. -/
theorem withParam_counter (stats : MQIStatistics) (p : PCFParameter) (c : MqiCounter) :
    (stats.withParam p).counter c = (p.counterWrite c).apply (stats.counter c) := by
  obtain ⟨id, type, value⟩ := p
  have hadd (x : Int32) : x + 0 = x := Int32.add_zero x
  cases value with
  | group ms =>
      by_cases hc : c ∈ mqiNestedCounters <;>
        simp [MQIStatistics.withParam, MQIStatistics.withNested, PCFParameter.counterWrite,
          PCFParameter.givenCounter, PCFParameter.nestedCounter, Write.apply, parseMqiStats, hc]
  | intList vs =>
      simp only [MQIStatistics.withParam, MQIStatistics.withIntList, PCFParameter.counterWrite,
        PCFParameter.givenCounter, PCFParameter.nestedCounter]
      rcases hid : mqiListCounters.lookup id with _ | d
      · rcases mqiListTotals.lookup id with _ | t <;>
          simp [MQIStatistics.setTotal, Write.apply]
      · by_cases hd : c = d
        · subst hd
          simp [MQIStatistics.setCounter, Write.apply]
        · simp [MQIStatistics.setCounter, Write.apply, hd, Ne.symm hd]
  | int32 v =>
      simp only [MQIStatistics.withParam, MQIStatistics.withInt, PCFParameter.counterWrite,
        PCFParameter.givenCounter, PCFParameter.nestedCounter]
      rcases hid : mqiIntCounters.lookup id with _ | d
      · simp [Write.apply]
      · by_cases hd : c = d
        · subst hd
          simp [MQIStatistics.setCounter, Write.apply]
        · simp [MQIStatistics.setCounter, Write.apply, hd, Ne.symm hd]
  | string s =>
      simp only [MQIStatistics.withParam, MQIStatistics.withString]
      split_ifs <;> exact (hadd _).symm
  | monostate => exact (hadd _).symm
  | int64 v => exact (hadd _).symm
  | stringList ss => exact (hadd _).symm

/-- One parameter writes to a 64-bit field. -/
theorem withParam_total (stats : MQIStatistics) (p : PCFParameter) (t : MqiTotal) :
    (stats.withParam p).total t = (p.totalWrite t).apply (stats.total t) := by
  obtain ⟨id, type, value⟩ := p
  have hadd (x : Int64) : x + 0 = x := Int64.add_zero x
  cases value with
  | group ms => exact (hadd _).symm
  | intList vs =>
      simp only [MQIStatistics.withParam, MQIStatistics.withIntList, PCFParameter.totalWrite,
        PCFParameter.givenTotal]
      rcases hid : mqiListTotals.lookup id with _ | u
      · rcases mqiListCounters.lookup id with _ | d <;>
          simp [MQIStatistics.setCounter, Write.apply]
      · rw [mqiListCounters_of_total hid]
        by_cases hu : t = u
        · subst hu
          simp [MQIStatistics.setTotal, Write.apply]
        · simp [MQIStatistics.setTotal, Write.apply, hu, Ne.symm hu]
  | int32 v =>
      simp only [MQIStatistics.withParam, MQIStatistics.withInt]
      rcases mqiIntCounters.lookup id with _ | d <;> exact (hadd _).symm
  | string s =>
      simp only [MQIStatistics.withParam, MQIStatistics.withString]
      split_ifs <;> exact (hadd _).symm
  | monostate => exact (hadd _).symm
  | int64 v => exact (hadd _).symm
  | stringList ss => exact (hadd _).symm

theorem withParams_counter (stats : MQIStatistics) (ps : List PCFParameter) (c : MqiCounter) :
    (stats.withParams ps).counter c =
      Write.run (stats.counter c) (ps.map (PCFParameter.counterWrite c)) := by
  induction ps generalizing stats with
  | nil => rfl
  | cons p ps ih =>
      rw [MQIStatistics.withParams, ih, withParam_counter, List.map_cons, Write.run_cons]

theorem withParams_total (stats : MQIStatistics) (ps : List PCFParameter) (t : MqiTotal) :
    (stats.withParams ps).total t =
      Write.run (stats.total t) (ps.map (PCFParameter.totalWrite t)) := by
  induction ps generalizing stats with
  | nil => rfl
  | cons p ps ih =>
      rw [MQIStatistics.withParams, ih, withParam_total, List.map_cons, Write.run_cons]

/-- A 32-bit field of the result is what the parameters write to it. -/
theorem parseMqiStats_counter (ps : List PCFParameter) (c : MqiCounter) :
    (parseMqiStats ps).counter c = Write.run 0 (ps.map (PCFParameter.counterWrite c)) :=
  withParams_counter {} ps c

/-- A 64-bit field of the result is what the parameters write to it. -/
theorem parseMqiStats_total (ps : List PCFParameter) (t : MqiTotal) :
    (parseMqiStats ps).total t = Write.run 0 (ps.map (PCFParameter.totalWrite t)) :=
  withParams_total {} ps t

/-! ## Lists of groups -/

/-- A number field of `MQIStatistics`. -/
inductive MqiField where
  | counter (c : MqiCounter)
  | total (t : MqiTotal)
  deriving DecidableEq, Repr

namespace MqiField

/-- The number in the field. -/
def value (stats : MQIStatistics) : MqiField → ℤ
  | counter c => (stats.counter c).toInt
  | total t => (stats.total t).toInt

/-- The numbers that fit in the field. -/
def Fits : MqiField → ℤ → Prop
  | counter _ => InInt32
  | total _ => InInt64

instance (f : MqiField) (n : ℤ) : Decidable (f.Fits n) :=
  match f with
  | counter _ => inferInstanceAs (Decidable (InInt32 n))
  | total _ => inferInstanceAs (Decidable (InInt64 n))

/-- The fields that `parse_mqi_stats` takes over from a nested group. -/
def Forwarded (f : MqiField) : Prop := ∃ c ∈ mqiNestedCounters, f = counter c

/-- The number that the parameters of a list give the field: the last of them that has
the field's id, and zero if none has. -/
def lastGiven (ps : List PCFParameter) : MqiField → ℤ
  | counter c => ((ps.filterMap (PCFParameter.givenCounter c)).getLast?.getD 0).toInt
  | total t => ((ps.filterMap (PCFParameter.givenTotal t)).getLast?.getD 0).toInt

/-- The additive counters that the statistics of an application are mostly read for. -/
def additive : List MqiField :=
  [counter .opens, counter .closes, counter .puts, counter .gets, counter .commits,
   counter .backouts, counter .browses, counter .inqs, counter .sets, counter .fails,
   counter .msgsReceived, counter .msgsSent, total .bytesReceived, total .bytesSent]

end MqiField

/-- A parameter that is a nested group. -/
structure NestedGroup where
  id : Int32
  type : Int32
  members : List PCFParameter

/-- The group as a parameter. -/
def NestedGroup.param (g : NestedGroup) : PCFParameter := ⟨g.id, g.type, .group g.members⟩

/-- A field that is not taken over from groups holds what the list itself gives it. -/
theorem value_of_not_forwarded {f : MqiField} (hf : ¬ f.Forwarded) (ps : List PCFParameter) :
    f.value (parseMqiStats ps) = f.lastGiven ps := by
  cases f with
  | counter c =>
      have hc : c ∉ mqiNestedCounters := fun hc => hf ⟨c, hc, rfl⟩
      have hzero : ∀ a, Write.add a ∈ ps.map (PCFParameter.counterWrite c) → a = 0 := by
        intro a ha
        obtain ⟨p, -, -, rfl⟩ := mem_counterWrite_add.mp ha
        exact (nestedCounter_eq_zero_or c p).resolve_right fun h => hc h.1
      simp only [MqiField.value, MqiField.lastGiven]
      rw [parseMqiStats_counter, Write.run_of_assigns hzero, filterMap_assigned_counterWrite]
  | total t =>
      have hzero : ∀ a, Write.add a ∈ ps.map (PCFParameter.totalWrite t) → a = 0 :=
        fun _ => mem_totalWrite_add
      simp only [MqiField.value, MqiField.lastGiven]
      rw [parseMqiStats_total, Write.run_of_assigns hzero, filterMap_assigned_totalWrite]

/-- A list of groups gives no field a number of its own. -/
theorem lastGiven_groups (f : MqiField) (gs : List NestedGroup) :
    f.lastGiven (gs.map NestedGroup.param) = 0 := by
  have hcounter (c : MqiCounter) :
      (gs.map NestedGroup.param).filterMap (PCFParameter.givenCounter c) = [] := by
    simp [NestedGroup.param, PCFParameter.givenCounter]
  have htotal (t : MqiTotal) :
      (gs.map NestedGroup.param).filterMap (PCFParameter.givenTotal t) = [] := by
    simp [NestedGroup.param, PCFParameter.givenTotal]
  cases f with
  | counter c => simp [MqiField.lastGiven, hcounter]
  | total t => simp [MqiField.lastGiven, htotal]

/-- A counter that is taken over from groups is added up over a list of them. -/
theorem counter_groups {c : MqiCounter} (hc : c ∈ mqiNestedCounters) (gs : List NestedGroup) :
    (parseMqiStats (gs.map NestedGroup.param)).counter c =
      (gs.map fun g => (parseMqiStats g.members).counter c).sum := by
  have hnone : ((gs.map NestedGroup.param).map
      (PCFParameter.counterWrite c)).filterMap Write.assigned = [] := by
    rw [filterMap_assigned_counterWrite]
    simp [NestedGroup.param, PCFParameter.givenCounter]
  rw [parseMqiStats_counter, Write.run_of_adds hnone, zero_add, List.map_map, List.map_map]
  congr 2
  funext g
  simp [NestedGroup.param, PCFParameter.counterWrite, PCFParameter.givenCounter,
    PCFParameter.nestedCounter, Write.value, hc]

/-- A sum of machine integers is the sum of the integers, reduced to 32 bits. -/
theorem toInt_sum (vs : List Int32) : vs.sum.toInt = (vs.map Int32.toInt).sum.bmod (2 ^ 32) := by
  induction vs with
  | nil => simp
  | cons v vs ih =>
      rw [List.sum_cons, List.map_cons, List.sum_cons, Int32.toInt_add, ih, Int.add_bmod_bmod]

/-- A field of a list of groups is the sum over the groups, when the sum fits, if and
only if it is taken over from groups or what the groups give it adds up to zero. -/
theorem value_groups_eq_sum_iff (gs : List NestedGroup) (f : MqiField)
    (hfits : f.Fits (gs.map fun g => f.value (parseMqiStats g.members)).sum) :
    f.value (parseMqiStats (gs.map NestedGroup.param)) =
        (gs.map fun g => f.value (parseMqiStats g.members)).sum ↔
      f.Forwarded ∨ (gs.map fun g => f.lastGiven g.members).sum = 0 := by
  by_cases hf : f.Forwarded
  · refine iff_of_true ?_ (.inl hf)
    obtain ⟨c, hc, rfl⟩ := hf
    simp only [MqiField.value]
    rw [counter_groups hc, toInt_sum, List.map_map]
    exact (bmod_eq_self_iff_inInt32 _).mpr hfits
  · have hsum : (gs.map fun g => f.value (parseMqiStats g.members)) =
        gs.map fun g => f.lastGiven g.members := by
      congr 1
      funext g
      exact value_of_not_forwarded hf g.members
    rw [value_of_not_forwarded hf, lastGiven_groups, hsum]
    constructor
    · intro h
      exact .inr h.symm
    · rintro (h | h)
      · exact absurd h hf
      · exact h.symm

/-- A group that counts seven browses. -/
def sevenBrowses : NestedGroup := ⟨8010, mqcftGroup, [⟨mqiamoBrowses, mqcftInteger, .int32 7⟩]⟩

theorem value_groups_eq_sum_iff_sevenBrowses :
    InInt32 7 ∧
      ((MqiField.counter .browses).value (parseMqiStats [sevenBrowses.param]) = 7 ↔
        (MqiField.counter .browses).Forwarded ∨ (7 : ℤ) = 0) :=
  ⟨by decide, value_groups_eq_sum_iff [sevenBrowses] (.counter .browses) (by decide)⟩

/-- The browses of a group do not reach the statistics. -/
theorem not_value_groups_eq_sum :
    ¬ ∀ (gs : List NestedGroup) (f : MqiField), f ∈ MqiField.additive →
      f.Fits (gs.map fun g => f.value (parseMqiStats g.members)).sum →
        f.value (parseMqiStats (gs.map NestedGroup.param)) =
          (gs.map fun g => f.value (parseMqiStats g.members)).sum := by
  intro h
  have hbrowses := h [sevenBrowses] (.counter .browses) (by decide) (by decide)
  exact absurd hbrowses (by decide)

end IbmmqExporter.Pcf
