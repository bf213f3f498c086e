/-
  Pcf/Extractors.lean --- the loops of `parse_accounting` against `parse_mqi_stats`.

  `parse_operation_counts`, the loop over the groups in `parse_accounting` and
  `parse_connection_info` look for ids that `parse_mqi_stats` looks for too.

  WHAT THE FILE PROVES.  The loops of `parse_accounting` see single numbers only: they
  count what `parse_mqi_stats` counts if and only if the integer lists under their ids
  add up to zero in 32 bits.  `parse_mqi_stats` sees connection names under one of their
  two ids only: it takes the texts that `parse_connection_info` takes if and only if the
  last connection name, should it stand under the other id, repeats the name before.
-/
import IbmmqExporter.Foundation.Fields
import IbmmqExporter.Pcf.MqiSums

set_option autoImplicit false

namespace IbmmqExporter.Pcf

open Foundation

/-! ## Flat lists -/

/-- No parameter of the list is a group. -/
def Flat (ps : List PCFParameter) : Prop := ∀ p ∈ ps, ∀ ms, p.value ≠ .group ms

theorem withParams_eq_foldl (stats : MQIStatistics) (ps : List PCFParameter) :
    stats.withParams ps = ps.foldl MQIStatistics.withParam stats := by
  induction ps generalizing stats with
  | nil => rfl
  | cons p ps ih =>
      rw [MQIStatistics.withParams, ih]
      rfl

/-- Of a flat list a counter holds what is given to it last. -/
theorem parseMqiStats_counter_flat {ps : List PCFParameter} (h : Flat ps) (c : MqiCounter) :
    (parseMqiStats ps).counter c = lastOf (PCFParameter.givenCounter c) ps 0 := by
  have hzero : ∀ a, Write.add a ∈ ps.map (PCFParameter.counterWrite c) → a = 0 := by
    intro a ha
    obtain ⟨p, hp, -, rfl⟩ := mem_counterWrite_add.mp ha
    refine (nestedCounter_eq_zero_or c p).resolve_right ?_
    rintro ⟨-, id, type, ms, rfl, -⟩
    exact h _ hp ms rfl
  rw [parseMqiStats_counter, Write.run_of_assigns hzero, filterMap_assigned_counterWrite]
  rfl

/-! ## Counts -/

/-- The counters that an accounting message has, under the names of
`MQIStatistics`. -/
def OperationCounts.counter (ops : OperationCounts) : MqiCounter → Int32
  | .opens => ops.opens
  | .closes => ops.closes
  | .puts => ops.puts
  | .gets => ops.gets
  | .commits => ops.commits
  | .backouts => ops.backouts
  | .browses => ops.browses
  | _ => 0

/-- The id of a counter that `parse_operation_counts` looks for. -/
def operationId : MqiCounter → Int32
  | .opens => mqiamoOpens
  | .closes => mqiamoCloses
  | .puts => mqiamoPuts
  | .gets => mqiamoGets
  | .commits => mqiamoCommits
  | .backouts => mqiamoBackouts
  | _ => 0

/-- The number that stands under an id as a single number. -/
def PCFParameter.single (id : Int32) : PCFParameter → Option Int32
  | ⟨i, _, .int32 v⟩ => if i = id then some v else none
  | _ => none

/-- The six counters that both functions give have the same values. -/
def SameCounts (ops : OperationCounts) (stats : MQIStatistics) : Prop :=
  ops.opens = stats.counter .opens ∧ ops.closes = stats.counter .closes ∧
    ops.puts = stats.counter .puts ∧ ops.gets = stats.counter .gets ∧
    ops.commits = stats.counter .commits ∧ ops.backouts = stats.counter .backouts

theorem sameCounts_iff {ops : OperationCounts} {stats : MQIStatistics} :
    SameCounts ops stats ↔ ∀ c ∈ mqiNestedCounters, ops.counter c = stats.counter c := by
  simp [SameCounts, mqiNestedCounters, OperationCounts.counter]

theorem OperationCounts.withParam_counter {c : MqiCounter} (hc : c ∈ mqiNestedCounters)
    (ops : OperationCounts) (p : PCFParameter) :
    (ops.withParam p).counter c = (p.single (operationId c)).getD (ops.counter c) := by
  obtain ⟨id, type, value⟩ := p
  cases value with
  | int32 v =>
      simp only [mqiNestedCounters, List.mem_cons, List.not_mem_nil, or_false] at hc
      by_cases hid : id = operationId c
      · subst hid
        rcases hc with rfl | rfl | rfl | rfl | rfl | rfl <;> rfl
      · have hsingle : PCFParameter.single (operationId c) ⟨id, type, .int32 v⟩ = none := if_neg hid
        rw [hsingle, Option.getD_none]
        rcases hc with rfl | rfl | rfl | rfl | rfl | rfl <;> simp only [operationId] at hid <;>
          simp only [OperationCounts.counter, OperationCounts.withParam, if_neg hid, ite_self,
            apply_ite OperationCounts.opens, apply_ite OperationCounts.closes,
            apply_ite OperationCounts.puts, apply_ite OperationCounts.gets,
            apply_ite OperationCounts.commits, apply_ite OperationCounts.backouts]
  | monostate => rfl
  | int64 v => rfl
  | string s => rfl
  | intList vs => rfl
  | stringList ss => rfl
  | group ms => rfl

theorem parseOperationCounts_counter {c : MqiCounter} (hc : c ∈ mqiNestedCounters)
    (ps : List PCFParameter) :
    (parseOperationCounts ps).counter c = lastOf (PCFParameter.single (operationId c)) ps 0 := by
  have hzero : (({} : OperationCounts)).counter c = 0 := by cases c <;> rfl
  rw [← hzero]
  exact foldl_field (fun ops => ops.counter c)
    (fun ops p _ => OperationCounts.withParam_counter hc ops p) _

theorem QueueAppOperation.withParam_counts (qa : QueueAppOperation) (p : PCFParameter) :
    (qa.withParam p).puts = (p.single mqiamoPuts).getD qa.puts ∧
      (qa.withParam p).gets = (p.single mqiamoGets).getD qa.gets := by
  obtain ⟨id, type, value⟩ := p
  cases value with
  | int32 v =>
      constructor
      · by_cases hid : id = mqiamoPuts
        · subst hid
          rfl
        · simp only [PCFParameter.single, QueueAppOperation.withParam, if_neg hid, ite_self,
            apply_ite QueueAppOperation.puts, Option.getD_none]
      · by_cases hid : id = mqiamoGets
        · subst hid
          rfl
        · simp only [PCFParameter.single, QueueAppOperation.withParam, if_neg hid, ite_self,
            apply_ite QueueAppOperation.gets, Option.getD_none]
  | string s =>
      simp only [QueueAppOperation.withParam, PCFParameter.single, Option.getD_none, ite_self,
        apply_ite QueueAppOperation.puts, apply_ite QueueAppOperation.gets, and_self]
  | _ => exact ⟨rfl, rfl⟩

/-- The group's loop in `parse_accounting` counts puts and gets as
`parse_operation_counts` does. -/
theorem QueueAppOperation.foldl_counts (ms : List PCFParameter) :
    (ms.foldl QueueAppOperation.withParam {}).puts =
        lastOf (PCFParameter.single mqiamoPuts) ms 0 ∧
      (ms.foldl QueueAppOperation.withParam {}).gets =
        lastOf (PCFParameter.single mqiamoGets) ms 0 :=
  ⟨foldl_field QueueAppOperation.puts (fun qa p _ => (qa.withParam_counts p).1) _,
    foldl_field QueueAppOperation.gets (fun qa p _ => (qa.withParam_counts p).2) _⟩

/-! ### Numbers and integer lists -/

/-- At most one parameter stands under the id, a number or an integer list. -/
structure NumberOnce (id : Int32) (ps : List PCFParameter) : Prop where
  once : (ps.filter fun p => p.parameter = id).length ≤ 1
  number : ∀ p ∈ ps, p.parameter = id → (∃ v, p.value = .int32 v) ∨ ∃ vs, p.value = .intList vs

/-- The integer lists under the id add up to zero in 32 bits. -/
def ListsCancel (id : Int32) (ps : List PCFParameter) : Prop :=
  ∀ p ∈ ps, p.parameter = id → ∀ vs, p.value = .intList vs → (2 ^ 32 : ℤ) ∣ exactSum vs

theorem sum32_eq_zero_iff (vs : List Int64) : sum32 vs = 0 ↔ (2 ^ 32 : ℤ) ∣ exactSum vs := by
  have hsum : (sum32 vs).toInt = (exactSum vs).bmod (2 ^ 32) := by
    rw [sum32_eq_run, narrowed, Write.run_map_add, toInt_sum, exactSum]
    induction vs with
    | nil => rfl
    | cons v vs ih =>
        simp only [List.map_cons, List.sum_cons, Int64.toInt_toInt32]
        rw [Int.bmod_add_bmod, ← Int.add_bmod_bmod, ih, Int.add_bmod_bmod]
  rw [← Int32.toInt_inj, hsum, Int32.toInt_zero]
  exact (Int.dvd_iff_bmod_eq_zero ..).symm

/-- Of the six counters, each is found under its own id, as a number and as a list. -/
theorem lookup_operationId {c : MqiCounter} (hc : c ∈ mqiNestedCounters) (id : Int32) :
    (mqiListCounters.lookup id = some c ↔ id = operationId c) ∧
      (mqiIntCounters.lookup id = some c ↔ id = operationId c) := by
  have hlist : ∀ e ∈ mqiListCounters, e.2 ∈ mqiNestedCounters → e.1 = operationId e.2 := by decide
  have hint : ∀ e ∈ mqiIntCounters, e.2 ∈ mqiNestedCounters → e.1 = operationId e.2 := by decide
  have hown : ∀ c ∈ mqiNestedCounters, mqiListCounters.lookup (operationId c) = some c ∧
      mqiIntCounters.lookup (operationId c) = some c := by decide
  constructor
  · exact ⟨fun h => hlist _ (lookup_mem h) hc, fun h => h ▸ (hown c hc).1⟩
  · exact ⟨fun h => hint _ (lookup_mem h) hc, fun h => h ▸ (hown c hc).2⟩

/-- What a parameter gives to one of the six counters in `parse_mqi_stats`. -/
theorem givenCounter_eq {c : MqiCounter} (hc : c ∈ mqiNestedCounters) (p : PCFParameter) :
    p.givenCounter c =
      if p.parameter = operationId c then
        match p.value with
        | .intList vs => some (sum32 vs)
        | .int32 v => some v
        | _ => none
      else none := by
  obtain ⟨id, type, value⟩ := p
  obtain ⟨hlist, hint⟩ := lookup_operationId hc id
  cases value <;> simp [PCFParameter.givenCounter, hlist, hint]

theorem PCFParameter.single_eq (id : Int32) (p : PCFParameter) :
    p.single id =
      if p.parameter = id then
        match p.value with
        | .int32 v => some v
        | _ => none
      else none := by
  obtain ⟨i, type, value⟩ := p
  cases value <;> simp [PCFParameter.single]

theorem PCFParameter.single_eq_none {id : Int32} {p : PCFParameter} (h : p.parameter ≠ id) :
    p.single id = none := by
  rw [PCFParameter.single_eq, if_neg h]

/-- The parameter under an id at which only one stands, and those around it. -/
theorem NumberOnce.split {id : Int32} {ps : List PCFParameter} (h : NumberOnce id ps)
    (hsome : ∃ p ∈ ps, p.parameter = id) :
    ∃ before p after, ps = before ++ p :: after ∧ p.parameter = id ∧
      (∀ q ∈ before, q.parameter ≠ id) ∧ ∀ q ∈ after, q.parameter ≠ id := by
  obtain ⟨p, hp, hid⟩ := hsome
  obtain ⟨before, after, rfl⟩ := List.append_of_mem hp
  have hone := h.once
  rw [List.filter_append, List.filter_cons_of_pos (by simp [hid]), List.length_append,
    List.length_cons] at hone
  have hbefore := List.eq_nil_of_length_eq_zero (l := before.filter fun p => p.parameter = id)
    (by omega)
  have hafter := List.eq_nil_of_length_eq_zero (l := after.filter fun p => p.parameter = id)
    (by omega)
  refine ⟨before, p, after, rfl, hid, ?_, ?_⟩
  · simpa [List.filter_eq_nil_iff] using hbefore
  · simpa [List.filter_eq_nil_iff] using hafter

/-- The two loops agree on a counter if and only if the lists under its id cancel. -/
theorem lastOf_single_eq_iff {c : MqiCounter} (hc : c ∈ mqiNestedCounters)
    {ps : List PCFParameter} (h : NumberOnce (operationId c) ps) :
    lastOf (PCFParameter.single (operationId c)) ps 0 = lastOf (PCFParameter.givenCounter c) ps 0 ↔
      ListsCancel (operationId c) ps := by
  have hother {q : PCFParameter} (hq : q.parameter ≠ operationId c) : q.givenCounter c = none := by
    rw [givenCounter_eq hc, if_neg hq]
  by_cases hsome : ∃ p ∈ ps, p.parameter = operationId c
  · obtain ⟨before, p, after, rfl, hid, hbefore, hafter⟩ := h.split hsome
    have honly : ∀ q ∈ before ++ p :: after, q.parameter = operationId c → q = p := by
      intro q hq hqid
      rcases List.mem_append.mp hq with hq | hq
      · exact absurd hqid (hbefore q hq)
      · rcases List.mem_cons.mp hq with rfl | hq
        · rfl
        · exact absurd hqid (hafter q hq)
    have hgiven := givenCounter_eq hc p
    rw [if_pos hid] at hgiven
    rcases h.number p (by simp) hid with ⟨v, hv⟩ | ⟨vs, hvs⟩
    · -- a number: both loops see it
      have hsingle : p.single (operationId c) = some v := by
        rw [PCFParameter.single_eq, if_pos hid, hv]
      rw [hv] at hgiven
      rw [lastOf_split hsingle fun q hq => PCFParameter.single_eq_none (hafter q hq),
        lastOf_split hgiven fun q hq => hother (hafter q hq)]
      refine iff_of_true rfl fun q hq hqid vs hvs => ?_
      rw [honly q hq hqid, hv] at hvs
      cases hvs
    · -- a list: only `parse_mqi_stats` sees it
      have hsingle : ∀ q ∈ before ++ p :: after, q.single (operationId c) = none := by
        intro q hq
        by_cases hqid : q.parameter = operationId c
        · rw [PCFParameter.single_eq, if_pos hqid, honly q hq hqid, hvs]
        · exact PCFParameter.single_eq_none hqid
      rw [hvs] at hgiven
      rw [lastOf_of_none hsingle, lastOf_split hgiven fun q hq => hother (hafter q hq), eq_comm,
        sum32_eq_zero_iff]
      constructor
      · intro hsum q hq hqid us hus
        rw [honly q hq hqid, hvs] at hus
        obtain rfl := PCFValue.intList.inj hus
        exact hsum
      · intro hcancel
        exact hcancel p (by simp) hid vs hvs
  · have hnone : ∀ q ∈ ps, q.parameter ≠ operationId c := fun q hq hqid => hsome ⟨q, hq, hqid⟩
    rw [lastOf_of_none fun q hq => PCFParameter.single_eq_none (hnone q hq),
      lastOf_of_none fun q hq => hother (hnone q hq)]
    exact iff_of_true rfl fun q hq hqid => absurd hqid (hnone q hq)

/-! ### Both messages -/

/-- The ids of the six counters. -/
def operationIds : List Int32 := mqiNestedCounters.map operationId

/-- The text that stands under one of the ids. -/
def PCFParameter.text (ids : List Int32) : PCFParameter → Option Bytes
  | ⟨i, _, .string s⟩ => if i ∈ ids then some s else none
  | _ => none

/-- The members of a group name a queue. -/
def NamesQueue (ms : List PCFParameter) : Prop := lastOf (PCFParameter.text [mqcaQName]) ms [] ≠ []

instance (ms : List PCFParameter) : Decidable (NamesQueue ms) := inferInstanceAs (Decidable (_ ≠ _))

theorem QueueAppOperation.foldl_queueName (ms : List PCFParameter) :
    (ms.foldl QueueAppOperation.withParam {}).queueName =
      lastOf (PCFParameter.text [mqcaQName]) ms [] := by
  refine foldl_field QueueAppOperation.queueName ?_ _
  rintro qa ⟨id, type, value⟩ -
  cases value with
  | string s =>
      by_cases hid : id = mqcaQName
      · subst hid
        rfl
      · simp only [QueueAppOperation.withParam, PCFParameter.text, List.mem_singleton, if_neg hid,
          ite_self, apply_ite QueueAppOperation.queueName, Option.getD_none]
  | int32 v =>
      simp only [QueueAppOperation.withParam, PCFParameter.text, ite_self,
        apply_ite QueueAppOperation.queueName, Option.getD_none]
  | _ => rfl

/-- The puts that a queue operation reports; a group that gives none reports none. -/
def reportedPuts (op : Option QueueAppOperation) : Int32 := (op.map QueueAppOperation.puts).getD 0

/-- The gets that a queue operation reports. -/
def reportedGets (op : Option QueueAppOperation) : Int32 := (op.map QueueAppOperation.gets).getD 0

/-- The test on the counts in `parse_accounting` changes no reported number. -/
theorem parseQueueOperation_reports (id type : Int32) {ms : List PCFParameter}
    (h : NamesQueue ms) :
    reportedPuts (parseQueueOperation ⟨id, type, .group ms⟩) =
        lastOf (PCFParameter.single mqiamoPuts) ms 0 ∧
      reportedGets (parseQueueOperation ⟨id, type, .group ms⟩) =
        lastOf (PCFParameter.single mqiamoGets) ms 0 := by
  obtain ⟨hputs, hgets⟩ := QueueAppOperation.foldl_counts ms
  have hname := QueueAppOperation.foldl_queueName ms
  rw [← hputs, ← hgets]
  simp only [parseQueueOperation]
  split
  · exact ⟨rfl, rfl⟩
  · next hnot =>
      rw [hname] at hnot
      constructor
      · by_contra hputs
        exact hnot ⟨h, .inl (Ne.symm hputs)⟩
      · by_contra hgets
        exact hnot ⟨h, .inr (.inl (Ne.symm hgets))⟩

/-- The queue operation of a group reports the puts and gets that `parse_mqi_stats` gives
for its members. -/
def ReportsCounts (op : Option QueueAppOperation) (ms : List PCFParameter) : Prop :=
  reportedPuts op = (parseMqiStats ms).counter .puts ∧
    reportedGets op = (parseMqiStats ms).counter .gets

theorem sameCounts_parse_iff {ps : List PCFParameter} (hflat : Flat ps)
    (hnum : ∀ id ∈ operationIds, NumberOnce id ps) :
    SameCounts (parseOperationCounts ps) (parseMqiStats ps) ↔
      ∀ id ∈ operationIds, ListsCancel id ps := by
  have hcounter : ∀ c ∈ mqiNestedCounters,
      ((parseOperationCounts ps).counter c = (parseMqiStats ps).counter c ↔
        ListsCancel (operationId c) ps) := by
    intro c hc
    rw [parseOperationCounts_counter hc, parseMqiStats_counter_flat hflat]
    exact lastOf_single_eq_iff hc (hnum _ (List.mem_map_of_mem hc))
  rw [sameCounts_iff, operationIds, List.forall_mem_map]
  exact forall₂_congr hcounter

theorem reportsCounts_iff {id type : Int32} {ms : List PCFParameter} (hflat : Flat ms)
    (hputs : NumberOnce mqiamoPuts ms) (hgets : NumberOnce mqiamoGets ms)
    (hname : NamesQueue ms) :
    ReportsCounts (parseQueueOperation ⟨id, type, .group ms⟩) ms ↔
      ListsCancel mqiamoPuts ms ∧ ListsCancel mqiamoGets ms := by
  obtain ⟨hreportedPuts, hreportedGets⟩ := parseQueueOperation_reports id type hname
  unfold ReportsCounts
  rw [hreportedPuts, hreportedGets, parseMqiStats_counter_flat hflat,
    parseMqiStats_counter_flat hflat]
  exact and_congr (lastOf_single_eq_iff (c := .puts) (by decide) hputs)
    (lastOf_single_eq_iff (c := .gets) (by decide) hgets)

/-- Accounting and statistics count alike, for a flat list and for a group of an
accounting message that has it for its members, if and only if the integer lists
cancel. -/
theorem countsAlike_iff {ps : List PCFParameter} (hflat : Flat ps) :
    ((∀ id ∈ operationIds, NumberOnce id ps) →
      (SameCounts (parseOperationCounts ps) (parseMqiStats ps) ↔
        ∀ id ∈ operationIds, ListsCancel id ps)) ∧
    ∀ (before after : List PCFParameter) (id type : Int32),
      NumberOnce mqiamoPuts ps → NumberOnce mqiamoGets ps → NamesQueue ps →
        (parseAccounting (before ++ ⟨id, type, .group ps⟩ :: after)).queueOperations =
            (parseAccounting before).queueOperations ++
              ((parseQueueOperation ⟨id, type, .group ps⟩).toList ++
                (parseAccounting after).queueOperations) ∧
          (ReportsCounts (parseQueueOperation ⟨id, type, .group ps⟩) ps ↔
            ListsCancel mqiamoPuts ps ∧ ListsCancel mqiamoGets ps) := by
  refine ⟨sameCounts_parse_iff hflat, ?_⟩
  intro before after id type hputs hgets hname
  refine ⟨?_, reportsCounts_iff hflat hputs hgets hname⟩
  simp only [parseAccounting, List.filterMap_append, List.filterMap_cons]
  cases parseQueueOperation ⟨id, type, .group ps⟩ <;> rfl

/-- Three puts, counted by persistence in a list of two. -/
def listedPuts : PCFParameter := ⟨mqiamoPuts, mqcftIntegerList, .intList [1, 2]⟩

/-- The members of a group for a queue with three puts. -/
def listedPutsOfQueue : List PCFParameter := [⟨mqcaQName, mqcftString, .string [81]⟩, listedPuts]

theorem numberOnce_listedPuts (id : Int32) : NumberOnce id [listedPuts] where
  once := List.length_filter_le _ _
  number p hp _ := by
    obtain rfl := List.mem_singleton.mp hp
    exact .inr ⟨_, rfl⟩

theorem numberOnce_listedPutsOfQueue {id : Int32} (hid : id ≠ mqcaQName) :
    NumberOnce id listedPutsOfQueue where
  once := by
    rw [listedPutsOfQueue, List.filter_cons_of_neg (by simpa using Ne.symm hid)]
    exact (numberOnce_listedPuts id).once
  number p hp hpid := by
    rcases List.mem_cons.mp hp with rfl | hp
    · exact absurd hpid.symm hid
    · exact (numberOnce_listedPuts id).number p hp hpid

theorem flat_listedPutsOfQueue : Flat listedPutsOfQueue := by
  intro p hp ms hms
  simp only [listedPutsOfQueue, List.mem_cons, List.not_mem_nil, or_false] at hp
  rcases hp with rfl | rfl <;> cases hms

theorem flat_listedPuts : Flat [listedPuts] :=
  fun p hp => flat_listedPutsOfQueue p (List.mem_cons_of_mem _ hp)

/-- The puts in the list are lost, at the top and in the group of a queue. -/
theorem countsAlike_iff_listedPuts :
    (SameCounts (parseOperationCounts [listedPuts]) (parseMqiStats [listedPuts]) ↔
        ∀ id ∈ operationIds, ListsCancel id [listedPuts]) ∧
      (ReportsCounts (parseQueueOperation ⟨0, mqcftGroup, .group listedPutsOfQueue⟩)
          listedPutsOfQueue ↔
        ListsCancel mqiamoPuts listedPutsOfQueue ∧ ListsCancel mqiamoGets listedPutsOfQueue) :=
  ⟨(countsAlike_iff flat_listedPuts).1 fun id _ => numberOnce_listedPuts id,
    ((countsAlike_iff flat_listedPutsOfQueue).2 [] [] 0 mqcftGroup
      (numberOnce_listedPutsOfQueue (by decide)) (numberOnce_listedPutsOfQueue (by decide))
      (by decide)).2⟩

theorem not_countsAlike :
    (¬ ∀ ps, Flat ps → (∀ id ∈ operationIds, NumberOnce id ps) →
      SameCounts (parseOperationCounts ps) (parseMqiStats ps)) ∧
    ¬ ∀ (id type : Int32) (ms : List PCFParameter),
      Flat ms → (∀ id ∈ operationIds, NumberOnce id ms) → NamesQueue ms →
        ReportsCounts (parseQueueOperation ⟨id, type, .group ms⟩) ms := by
  constructor
  · intro h
    obtain ⟨-, -, hputs, -⟩ := h [listedPuts] flat_listedPuts fun id _ => numberOnce_listedPuts id
    exact absurd hputs (by decide +kernel)
  · intro h
    have hids : ∀ id ∈ operationIds, id ≠ mqcaQName := by
      rintro id hid rfl
      exact absurd hid (by decide)
    obtain ⟨hputs, -⟩ := h 0 mqcftGroup listedPutsOfQueue flat_listedPutsOfQueue
      (fun id hid => numberOnce_listedPutsOfQueue (hids id hid)) (by decide)
    exact absurd hputs (by decide +kernel)

/-! ## Texts -/

/-- The texts that both functions give are the same. -/
structure SameTexts (stats : MQIStatistics) (info : ConnectionInfo) : Prop where
  applicationName : stats.applicationName = info.applicationName
  applicationTag : stats.applicationTag = info.applicationTag
  userIdentifier : stats.userIdentifier = info.userIdentifier
  connectionName : stats.connectionName = info.connectionName
  channelName : stats.channelName = info.channelName

/-- A text field of `parse_mqi_stats`, for a flat list: what stands last under its
ids. -/
theorem parseMqiStats_text {field : MQIStatistics → Bytes} {ids : List Int32}
    {ps : List PCFParameter} (hflat : Flat ps) (hempty : field {} = [])
    (hcounter : ∀ stats c v, field (MQIStatistics.setCounter stats c v) = field stats)
    (htotal : ∀ stats t v, field (MQIStatistics.setTotal stats t v) = field stats)
    (hstring : ∀ stats id s, field (MQIStatistics.withString stats id s) =
      if id ∈ ids then s else field stats) :
    field (parseMqiStats ps) = lastOf (PCFParameter.text ids) ps [] := by
  have hlast (h : ∀ stats, ∀ p ∈ ps, field (MQIStatistics.withParam stats p) =
      (p.text ids).getD (field stats)) :
      field (parseMqiStats ps) = lastOf (PCFParameter.text ids) ps [] := by
    have hfold := foldl_field field h {}
    rwa [hempty, ← withParams_eq_foldl] at hfold
  refine hlast ?_
  rintro stats ⟨id, type, value⟩ hp
  cases value with
  | group ms => exact absurd rfl (hflat _ hp ms)
  | intList vs =>
      simp only [MQIStatistics.withParam, MQIStatistics.withIntList]
      split
      · exact hcounter ..
      · exact htotal ..
      · rfl
  | int32 v =>
      simp only [MQIStatistics.withParam, MQIStatistics.withInt]
      split
      · exact hcounter ..
      · rfl
  | string s =>
      simp only [MQIStatistics.withParam, PCFParameter.text, hstring]
      split <;> rfl
  | monostate => rfl
  | int64 v => rfl
  | stringList ss => rfl

/-- A text field of `parse_connection_info`: what stands last under its ids. -/
theorem parseConnectionInfo_text {field : ConnectionInfo → Bytes} {ids : List Int32}
    (hempty : field {} = [])
    (hstring : ∀ info id type s, field (ConnectionInfo.withParam info ⟨id, type, .string s⟩) =
      if id ∈ ids then s else field info) (ps : List PCFParameter) :
    field (parseConnectionInfo ps) = lastOf (PCFParameter.text ids) ps [] := by
  have hlast (h : ∀ info, ∀ p ∈ ps, field (ConnectionInfo.withParam info p) =
      (p.text ids).getD (field info)) :
      field (parseConnectionInfo ps) = lastOf (PCFParameter.text ids) ps [] := by
    have hfold := foldl_field field h {}
    rwa [hempty] at hfold
  refine hlast ?_
  rintro info ⟨id, type, value⟩ -
  cases value with
  | string s =>
      simp only [PCFParameter.text, hstring]
      split <;> rfl
  | monostate => rfl
  | int32 v => rfl
  | int64 v => rfl
  | intList vs => rfl
  | stringList ss => rfl
  | group ms => rfl

theorem parseMqiStats_texts {ps : List PCFParameter} (hflat : Flat ps) :
    (parseMqiStats ps).applicationName =
        lastOf (PCFParameter.text [mqcaApplName, mqcacfApplName]) ps [] ∧
      (parseMqiStats ps).applicationTag = lastOf (PCFParameter.text [mqcacfApplTag]) ps [] ∧
      (parseMqiStats ps).userIdentifier =
        lastOf (PCFParameter.text [mqcacfUserIdentifier]) ps [] ∧
      (parseMqiStats ps).connectionName =
        lastOf (PCFParameter.text [mqcachConnectionName]) ps [] ∧
      (parseMqiStats ps).channelName = lastOf (PCFParameter.text [mqcaChannelName]) ps [] := by
  refine ⟨?_, ?_, ?_, ?_, ?_⟩ <;>
    refine parseMqiStats_text hflat rfl (fun _ _ _ => rfl) (fun _ _ _ => rfl) ?_ <;>
    intro stats id s <;> simp only [List.mem_cons, List.not_mem_nil, or_false] <;> split
  -- an id of the field sets it, and any other id leaves it
  all_goals next hid =>
    first
    | subst hid; rfl
    | rcases hid with rfl | rfl <;> rfl
    | simp only [MQIStatistics.withString, if_neg hid, ite_self,
        apply_ite MQIStatistics.applicationName, apply_ite MQIStatistics.applicationTag,
        apply_ite MQIStatistics.userIdentifier, apply_ite MQIStatistics.connectionName,
        apply_ite MQIStatistics.channelName]

theorem parseConnectionInfo_texts (ps : List PCFParameter) :
    (parseConnectionInfo ps).applicationName =
        lastOf (PCFParameter.text [mqcaApplName, mqcacfApplName]) ps [] ∧
      (parseConnectionInfo ps).applicationTag =
        lastOf (PCFParameter.text [mqcacfApplTag]) ps [] ∧
      (parseConnectionInfo ps).userIdentifier =
        lastOf (PCFParameter.text [mqcacfUserIdentifier]) ps [] ∧
      (parseConnectionInfo ps).connectionName =
        lastOf (PCFParameter.text [mqcaConnectionName, mqcachConnectionName]) ps [] ∧
      (parseConnectionInfo ps).channelName =
        lastOf (PCFParameter.text [mqcaChannelName]) ps [] := by
  refine ⟨?_, ?_, ?_, ?_, ?_⟩ <;> refine parseConnectionInfo_text rfl ?_ ps <;>
    intro info id type s <;> simp only [List.mem_cons, List.not_mem_nil, or_false] <;> split
  all_goals next hid =>
    first
    | subst hid; rfl
    | rcases hid with rfl | rfl <;> rfl
    | simp only [ConnectionInfo.withParam, if_neg hid, ite_self,
        apply_ite ConnectionInfo.applicationName, apply_ite ConnectionInfo.applicationTag,
        apply_ite ConnectionInfo.userIdentifier, apply_ite ConnectionInfo.connectionName,
        apply_ite ConnectionInfo.channelName]

/-! ### Connection names -/

/-- If the last connection name of the list stands under `MQCA_CONNECTION_NAME`, it is the
last one that stands under `MQCACH_CONNECTION_NAME`, or empty if there is none. -/
def ConnectionRepeats (ps : List PCFParameter) : Prop :=
  ∀ before p after s, ps = before ++ p :: after → p.text [mqcaConnectionName] = some s →
    (∀ q ∈ after, q.text [mqcaConnectionName, mqcachConnectionName] = none) →
      s = lastOf (PCFParameter.text [mqcachConnectionName]) before []

theorem text_connectionName (p : PCFParameter) :
    p.text [mqcaConnectionName, mqcachConnectionName] =
      (p.text [mqcaConnectionName]).or (p.text [mqcachConnectionName]) := by
  obtain ⟨id, type, value⟩ := p
  cases value with
  | string s =>
      simp only [PCFParameter.text, List.mem_cons, List.not_mem_nil, or_false]
      by_cases hid : id = mqcaConnectionName <;> simp [hid]
  | _ => rfl

/-- No parameter stands under both ids. -/
theorem text_connectionName_disjoint {p : PCFParameter} {s : Bytes}
    (h : p.text [mqcaConnectionName] = some s) : p.text [mqcachConnectionName] = none := by
  obtain ⟨id, type, value⟩ := p
  cases value with
  | string s' =>
      simp only [PCFParameter.text, List.mem_singleton] at h ⊢
      split at h
      · next hid =>
          subst hid
          exact if_neg (by decide)
      · cases h
  | _ => rfl

/-- The connection names are the same if and only if the last one repeats the one
before. -/
theorem connectionName_eq_iff (ps : List PCFParameter) :
    lastOf (PCFParameter.text [mqcachConnectionName]) ps [] =
        lastOf (PCFParameter.text [mqcaConnectionName, mqcachConnectionName]) ps [] ↔
      ConnectionRepeats ps := by
  have hnone {q : PCFParameter} (hq : q.text [mqcaConnectionName, mqcachConnectionName] = none) :
      q.text [mqcachConnectionName] = none := by
    rw [text_connectionName, Option.or_eq_none_iff] at hq
    exact hq.2
  constructor
  · rintro h before p after s rfl hp hafter
    have hboth : p.text [mqcaConnectionName, mqcachConnectionName] = some s := by
      rw [text_connectionName, hp]
      rfl
    rw [lastOf_split hboth hafter, lastOf_append, lastOf_cons, text_connectionName_disjoint hp,
      lastOf_of_none fun q hq => hnone (hafter q hq)] at h
    exact h.symm
  · intro h
    by_cases hsome : ∃ p ∈ ps, p.text [mqcaConnectionName, mqcachConnectionName] ≠ none
    · obtain ⟨before, p, after, rfl, hp, hafter⟩ := exists_last hsome
      obtain ⟨s, hs⟩ := Option.ne_none_iff_exists'.mp hp
      rw [lastOf_split hs hafter]
      rw [text_connectionName] at hs
      cases hfirst : p.text [mqcaConnectionName] with
      | some s' =>
          have hs' : s' = s := by simpa [hfirst] using hs
          rw [lastOf_append, lastOf_cons, text_connectionName_disjoint hfirst,
            lastOf_of_none fun q hq => hnone (hafter q hq)]
          exact ((h before p after s' rfl hfirst hafter).symm.trans hs')
      | none =>
          have hs' : p.text [mqcachConnectionName] = some s := by simpa [hfirst] using hs
          exact lastOf_split hs' (fun q hq => hnone (hafter q hq)) []
    · have hall : ∀ q ∈ ps, q.text [mqcaConnectionName, mqcachConnectionName] = none := by
        intro q hq
        by_contra hgiven
        exact hsome ⟨q, hq, hgiven⟩
      rw [lastOf_of_none hall, lastOf_of_none fun q hq => hnone (hall q hq)]

/-- Both functions find the same texts in a flat list if and only if the last connection
name repeats the one before. -/
theorem sameTexts_parse_iff {ps : List PCFParameter} (hflat : Flat ps) :
    SameTexts (parseMqiStats ps) (parseConnectionInfo ps) ↔ ConnectionRepeats ps := by
  obtain ⟨happ, htag, huser, hconn, hchan⟩ := parseMqiStats_texts hflat
  obtain ⟨happ', htag', huser', hconn', hchan'⟩ := parseConnectionInfo_texts ps
  rw [← connectionName_eq_iff, ← hconn, ← hconn']
  constructor
  · intro h
    exact h.connectionName
  · intro h
    exact ⟨happ.trans happ'.symm, htag.trans htag'.symm, huser.trans huser'.symm, h,
      hchan.trans hchan'.symm⟩

end IbmmqExporter.Pcf
