/-
  Pcf/MqiSums.lean --- the sums of `parse_mqi_stats` against the exact ones.

  Of an integer list the code takes two sums, one of 32 and one of 64 bits, and it adds
  six counters up over the nested groups.  An element is narrowed before it is added to
  the sum of 32 bits.

  WHAT THE FILE PROVES.  All of these sums are exact, no element being truncated and no
  addition overflowing, if and only if every element and every partial sum fits in 32
  bits, taken as integers.
-/
import IbmmqExporter.Pcf.MqiFields
import IbmmqExporter.Pcf.RoundTrip

set_option autoImplicit false

namespace IbmmqExporter.Pcf

open Foundation

/-! ## Integer lists -/

/-- What the elements of an integer list write to the sum of 32 bits. -/
def narrowed (vs : List Int64) : List (Write Int32) := vs.map fun v => .add v.toInt32

/-- What the elements of an integer list write to the sum of 64 bits. -/
def widened (vs : List Int64) : List (Write Int64) := vs.map fun v => .add v

/-- The exact sum of an integer list. -/
def exactSum (vs : List Int64) : ℤ := (vs.map Int64.toInt).sum

theorem sum32_eq_run (vs : List Int64) : sum32 vs = Write.run 0 (narrowed vs) := by
  unfold sum32 narrowed Write.run
  rw [List.foldl_map]
  rfl

theorem sum64_eq_run (vs : List Int64) : sum64 vs = Write.run 0 (widened vs) := by
  unfold sum64 widened Write.run
  rw [List.foldl_map]
  rfl

/-- The sums of an integer list are exact: no element is truncated, no addition
overflows, and both are the exact sum. -/
structure ExactList (vs : List Int64) : Prop where
  narrow : ∀ v ∈ vs, v.toInt32.toInt = v.toInt
  adds32 : Write.ExactAdds Int32.toInt (narrowed vs)
  adds64 : Write.ExactAdds Int64.toInt (widened vs)
  sum32_eq : (sum32 vs).toInt = exactSum vs
  sum64_eq : (sum64 vs).toInt = exactSum vs

/-- Every element and every partial sum fits in 32 bits. -/
structure FittingList (vs : List Int64) : Prop where
  elements : ∀ v ∈ vs, InInt32 v.toInt
  sums : ∀ done, done <+: vs → InInt32 (exactSum done)

theorem run_exactSum (vs : List Int64) :
    Write.run 0 (vs.map fun v => Write.add v.toInt) = exactSum vs :=
  Write.run_map_add Int64.toInt vs

theorem narrowed_iff {vs : List Int64} (h : ∀ v ∈ vs, v.toInt32.toInt = v.toInt) :
    Write.ExactAdds Int32.toInt (narrowed vs) ↔
      ∀ done, done <+: vs → InInt32 (exactSum done) := by
  have hadd : ∀ v ∈ vs, (Write.add v.toInt32).map Int32.toInt = .add v.toInt := by
    intro v hv
    rw [Write.map, h v hv]
  refine (Write.exactAdds_map_iff machineInt_int32 hadd).trans ?_
  simp only [run_exactSum]

theorem widened_iff (vs : List Int64) :
    Write.ExactAdds Int64.toInt (widened vs) ↔
      ∀ done, done <+: vs → InInt64 (exactSum done) := by
  refine (Write.exactAdds_map_iff machineInt_int64 (g := fun v => .add v.toInt)
    fun _ _ => rfl).trans ?_
  simp only [run_exactSum]

/-- The sums of a list are exact if and only if its elements and partial sums fit. -/
theorem exactList_iff (vs : List Int64) : ExactList vs ↔ FittingList vs := by
  constructor
  · intro h
    refine ⟨?_, (narrowed_iff h.narrow).mp h.adds32⟩
    intro v hv
    exact (toInt_toInt32_eq_iff v).mp (h.narrow v hv)
  · intro h
    have hnarrow : ∀ v ∈ vs, v.toInt32.toInt = v.toInt :=
      fun v hv => (toInt_toInt32_eq_iff v).mpr (h.elements v hv)
    have h32 := (narrowed_iff hnarrow).mpr h.sums
    have h64 := (widened_iff vs).mpr fun done hdone => (h.sums done hdone).inInt64
    refine ⟨hnarrow, h32, h64, ?_, ?_⟩
    · rw [sum32_eq_run, ← run_exactSum]
      refine Write.run_map_exact machineInt_int32 ?_ h32
      intro v hv
      rw [Write.map, hnarrow v hv]
    · rw [sum64_eq_run, ← run_exactSum]
      exact Write.run_map_exact machineInt_int64 (fun _ _ => rfl) h64

/-! ## Nested groups -/

/- A counter in integers, without bounds. -/
mutual
/-- What a parameter writes to a counter, in integers. -/
def PCFParameter.exactWrite (c : MqiCounter) : PCFParameter → Write ℤ
  | ⟨_, _, .group ms⟩ => .add (if c ∈ mqiNestedCounters then exactFrom c 0 ms else 0)
  | ⟨id, _, .intList vs⟩ =>
      if mqiListCounters.lookup id = some c then .assign (exactSum vs) else .add 0
  | ⟨id, _, .int32 v⟩ => if mqiIntCounters.lookup id = some c then .assign v.toInt else .add 0
  | ⟨_, _, .string _⟩ => .add 0
  | ⟨_, _, .monostate⟩ => .add 0
  | ⟨_, _, .int64 _⟩ => .add 0
  | ⟨_, _, .stringList _⟩ => .add 0
/-- What the parameters of a list make of a counter, in integers. -/
def exactFrom (c : MqiCounter) (n : ℤ) : List PCFParameter → ℤ
  | [] => n
  | p :: ps => exactFrom c ((p.exactWrite c).apply n) ps
end

/-- The exact value of a counter. -/
def exactCounter (c : MqiCounter) (ps : List PCFParameter) : ℤ := exactFrom c 0 ps

theorem exactFrom_eq_run (c : MqiCounter) (n : ℤ) (ps : List PCFParameter) :
    exactFrom c n ps = Write.run n (ps.map (PCFParameter.exactWrite c)) := by
  induction ps generalizing n with
  | nil => simp [exactFrom]
  | cons p ps ih => rw [exactFrom, ih, List.map_cons, Write.run_cons]

/-- The additions of nested groups to the counters of a list are exact, and so are the
counters. -/
structure ExactLevel (ps : List PCFParameter) : Prop where
  adds : ∀ c ∈ mqiNestedCounters,
    Write.ExactAdds Int32.toInt (ps.map (PCFParameter.counterWrite c))
  counters : ∀ c ∈ mqiNestedCounters,
    ((parseMqiStats ps).counter c).toInt = exactCounter c ps

/-- All the way through a list the exact counters fit in 32 bits. -/
def FittingLevel (ps : List PCFParameter) : Prop :=
  ∀ c ∈ mqiNestedCounters, ∀ done, done <+: ps → InInt32 (exactCounter c done)

/-- Every sum that `parse_mqi_stats` takes in a tree is exact: of the integer lists and
over the groups, at every level. -/
def SumsExact (ps : List PCFParameter) : Prop :=
  ∀ qs, Level ps qs →
    ExactLevel qs ∧ ∀ id type vs, ⟨id, type, .intList vs⟩ ∈ qs → ExactList vs

/-- At every level of a tree the elements and the partial sums fit in 32 bits. -/
def SumsFit (ps : List PCFParameter) : Prop :=
  ∀ qs, Level ps qs →
    FittingLevel qs ∧ ∀ id type vs, ⟨id, type, .intList vs⟩ ∈ qs → FittingList vs

/-- What holds of every level: of the top and of the levels of each group. -/
theorem forall_level_iff {P : List PCFParameter → Prop} {ps : List PCFParameter} :
    (∀ qs, Level ps qs → P qs) ↔
      P ps ∧ ∀ id type ms, ⟨id, type, .group ms⟩ ∈ ps → ∀ qs, Level ms qs → P qs := by
  constructor
  · intro h
    exact ⟨h ps (.self ps), fun id type ms hms qs hqs => h qs (.nested hms hqs)⟩
  · rintro ⟨htop, hgroups⟩ qs hlevel
    cases hlevel with
    | self => exact htop
    | nested hms hqs => exact hgroups _ _ _ hms qs hqs

/-- The exact write of a parameter, where its list or its group is exact. -/
theorem map_counterWrite {c : MqiCounter} (hc : c ∈ mqiNestedCounters) {p : PCFParameter}
    (hlist : ∀ id type vs, p = ⟨id, type, .intList vs⟩ → ExactList vs)
    (hgroup : ∀ id type ms, p = ⟨id, type, .group ms⟩ → ExactLevel ms) :
    (p.counterWrite c).map Int32.toInt = p.exactWrite c := by
  obtain ⟨id, type, value⟩ := p
  unfold PCFParameter.counterWrite
  cases value with
  | group ms =>
      have hms := (hgroup id type ms rfl).counters c hc
      unfold exactCounter at hms
      simp [PCFParameter.givenCounter, PCFParameter.nestedCounter, PCFParameter.exactWrite,
        Write.map, hc, hms]
  | intList vs =>
      have hvs := (hlist id type vs rfl).sum32_eq
      simp only [PCFParameter.givenCounter, PCFParameter.nestedCounter, PCFParameter.exactWrite]
      split_ifs <;> simp [Write.map, hvs]
  | int32 v =>
      simp only [PCFParameter.givenCounter, PCFParameter.nestedCounter, PCFParameter.exactWrite]
      split_ifs <;> simp [Write.map]
  | string s => simp [PCFParameter.givenCounter, PCFParameter.nestedCounter,
      PCFParameter.exactWrite, Write.map]
  | monostate => simp [PCFParameter.givenCounter, PCFParameter.nestedCounter,
      PCFParameter.exactWrite, Write.map]
  | int64 v => simp [PCFParameter.givenCounter, PCFParameter.nestedCounter,
      PCFParameter.exactWrite, Write.map]
  | stringList ss => simp [PCFParameter.givenCounter, PCFParameter.nestedCounter,
      PCFParameter.exactWrite, Write.map]

/-- A level is exact if and only if its counters fit all the way, where its lists and
its groups are exact. -/
theorem exactLevel_iff {ps : List PCFParameter}
    (hlists : ∀ id type vs, ⟨id, type, .intList vs⟩ ∈ ps → ExactList vs)
    (hgroups : ∀ id type ms, ⟨id, type, .group ms⟩ ∈ ps → ExactLevel ms) :
    ExactLevel ps ↔ FittingLevel ps := by
  have hwrite {c : MqiCounter} (hc : c ∈ mqiNestedCounters) :
      ∀ p ∈ ps, (p.counterWrite c).map Int32.toInt = p.exactWrite c := by
    intro p hp
    refine map_counterWrite hc ?_ ?_
    · rintro id type vs rfl
      exact hlists id type vs hp
    · rintro id type ms rfl
      exact hgroups id type ms hp
  have hadds {c : MqiCounter} (hc : c ∈ mqiNestedCounters) :
      Write.ExactAdds Int32.toInt (ps.map (PCFParameter.counterWrite c)) ↔
        ∀ done, done <+: ps → InInt32 (exactCounter c done) := by
    refine (Write.exactAdds_map_iff machineInt_int32 (hwrite hc)).trans ?_
    simp only [exactCounter, exactFrom_eq_run]
  constructor
  · intro h c hc
    exact (hadds hc).mp (h.adds c hc)
  · intro h
    refine ⟨fun c hc => (hadds hc).mpr (h c hc), ?_⟩
    intro c hc
    unfold exactCounter
    rw [parseMqiStats_counter, exactFrom_eq_run]
    exact Write.run_map_exact machineInt_int32 (hwrite hc) ((hadds hc).mpr (h c hc))

/-- The sums of `parse_mqi_stats` are exact if and only if the elements and the partial
sums fit in 32 bits. -/
theorem sumsExact_iff (ps : List PCFParameter) : SumsExact ps ↔ SumsFit ps := by
  induction ps using levels_induction with
  | h ps ih =>
      unfold SumsExact SumsFit
      rw [forall_level_iff, forall_level_iff]
      have hgroups : (∀ id type ms, ⟨id, type, .group ms⟩ ∈ ps → SumsExact ms) ↔
          ∀ id type ms, ⟨id, type, .group ms⟩ ∈ ps → SumsFit ms := by
        refine forall_congr' fun id => forall_congr' fun type => forall_congr' fun ms => ?_
        exact forall_congr' fun hms => ih id type ms hms
      have hlists : (∀ id type vs, ⟨id, type, .intList vs⟩ ∈ ps → ExactList vs) ↔
          ∀ id type vs, ⟨id, type, .intList vs⟩ ∈ ps → FittingList vs := by
        refine forall_congr' fun id => forall_congr' fun type => forall_congr' fun vs => ?_
        rw [exactList_iff]
      constructor
      · rintro ⟨⟨hlevel, hvs⟩, hms⟩
        have hlevels : ∀ id type ms, ⟨id, type, .group ms⟩ ∈ ps → ExactLevel ms :=
          fun id type ms h => (hms id type ms h ms (.self ms)).1
        exact ⟨⟨(exactLevel_iff hvs hlevels).mp hlevel, hlists.mp hvs⟩, hgroups.mp hms⟩
      · rintro ⟨⟨hlevel, hvs⟩, hms⟩
        have hexact := hgroups.mpr hms
        have hlevels : ∀ id type ms, ⟨id, type, .group ms⟩ ∈ ps → ExactLevel ms :=
          fun id type ms h => (hexact id type ms h ms (.self ms)).1
        have hvs' := hlists.mpr hvs
        exact ⟨⟨(exactLevel_iff hvs' hlevels).mpr hlevel, hvs'⟩, hexact⟩

/-- An integer list whose two elements add up to `2^31`. -/
def overflowingPuts : List PcfTree := [.integerList mqiamoPuts [2147483647, 1]]

/-- Two elements of 32 bits are enough to overflow. -/
theorem not_sumsExact :
    ¬ ∀ (data : Bytes) (ps : List PCFParameter),
      parseParameters data = .ok ps → SumsExact ps := by
  intro h
  have hparsed : parseParameters (encodeAll overflowingPuts) = .ok (paramAll overflowingPuts) :=
    parseParameters_encodeAll overflowingPuts (by decide)
  have hlist := ((h _ _ hparsed) _ (.self _)).2 mqiamoPuts mqcftIntegerList
    [2147483647, 1] (by simp [overflowingPuts, paramAll, PcfTree.param])
  exact absurd hlist.sum32_eq (by decide)

end IbmmqExporter.Pcf
