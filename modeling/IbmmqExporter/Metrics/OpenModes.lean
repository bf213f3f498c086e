/-
  Metrics/OpenModes.lean --- the open modes that queue statistics are exported with.

  A group about a process that has the queue open counts how often it is open for input
  and how often for output.  `parse_queue_stats` makes one role of the two counts, and
  `process_statistics_message` exports the process in the family of that role.

  WHAT THE FILE PROVES.  A process is exported in the families of its open modes if and
  only if exactly one of its two counts is positive (`exportsModes_iff`).  With two of
  them the last counts, and without any the process is taken for one that has the queue
  open for output.
-/
import IbmmqExporter.Metrics.Messages
import IbmmqExporter.Pcf.Extractors

set_option autoImplicit false

namespace IbmmqExporter.Metrics

open Foundation Pcf Mq

/-! ## Groups -/

/-- The application name that a parameter gives. -/
def applicationGiven (np : PCFParameter) : Option Bytes :=
  match np.value with
  | .string s =>
      if np.parameter = mqcaApplName ∨ np.parameter = mqcacfApplName then some s else none
  | _ => none

/-- The application name of a group. -/
def applicationName (nested : List PCFParameter) : Bytes := lastOf applicationGiven nested []

/-- The count of a group under an id.  An absent count is zero. -/
def openCount (id : Int32) (nested : List PCFParameter) : Int32 :=
  (nested.filterMap (PCFParameter.single id)).head?.getD 0

/-- The count of a group is given once at most. -/
def GivenOnce (id : Int32) (nested : List PCFParameter) : Prop :=
  (nested.filterMap (PCFParameter.single id)).length ≤ 1

instance (id : Int32) (nested : List PCFParameter) : Decidable (GivenOnce id nested) :=
  inferInstanceAs (Decidable (_ ≤ _))

/-- The group that a parameter holds. -/
def groupGiven (p : PCFParameter) : Option (List PCFParameter) :=
  match p.value with
  | .group nested => some nested
  | _ => none

/-! ## Messages -/

/-- A queue statistics message, with what it decodes to.  In its groups each of the two
counts is given once at most. -/
structure QueueReport where
  msg : MQMessage
  hdr : PCFHeader
  params : List PCFParameter
  long : 36 ≤ msg.data.length
  header : parseHeader msg.data = .ok hdr
  parameters : parseParameters (msg.data.drop 36) = .ok params
  command : hdr.command = cmdStatisticsQ
  input_once : ∀ nested ∈ params.filterMap groupGiven, GivenOnce mqiaOpenInputCount nested
  output_once : ∀ nested ∈ params.filterMap groupGiven, GivenOnce mqiaOpenOutputCount nested

namespace QueueReport

/-- The groups of the message. -/
def groups (m : QueueReport) : List (List PCFParameter) := m.params.filterMap groupGiven

/-- The queue manager under which the message is exported. -/
def qmgr (cfg : Config) (m : QueueReport) : Bytes :=
  if findQueueManager m.params = [] then cfg.queueManager else findQueueManager m.params

/-- The turn of the loop for a process. -/
def turn (cfg : Config) (m : QueueReport) : Registry → ProcInfo → Registry :=
  recordProc cfg (m.qmgr cfg) (parseQueueStats m.params).queueName

/-- When the message is processed, the loop has a turn for the process, and nothing but
the loop writes to the two families. -/
def HasTurn (cfg : Config) (m : QueueReport) (proc : ProcInfo) : Prop :=
  ∃ before after : List ProcInfo, ∀ c : MetricsCollector, ∃ start : Registry,
    start .queueInputHandles = c.registry .queueInputHandles ∧
      start .queueOutputHandles = c.registry .queueOutputHandles ∧
      (processStatisticsMessage cfg m.msg c).1 = .ok () ∧
      (processStatisticsMessage cfg m.msg c).2.registry =
        after.foldl (m.turn cfg) (m.turn cfg (before.foldl (m.turn cfg) start) proc)

/-- The process of a group is exported in a family: it has a turn, which sets a series
of the family. -/
def Exported (cfg : Config) (m : QueueReport) (nested : List PCFParameter) (f : Family) : Prop :=
  m.HasTurn cfg (parseProcInfo nested) ∧
    ∃ r ls, m.turn cfg r (parseProcInfo nested) f ls ≠ r f ls

/-- Every process with an application name is exported in the families of its open
modes. -/
def ExportsModes (cfg : Config) (m : QueueReport) : Prop :=
  ∀ nested ∈ m.groups, applicationName nested ≠ [] →
    (m.Exported cfg nested .queueInputHandles ↔ 0 < openCount mqiaOpenInputCount nested) ∧
      (m.Exported cfg nested .queueOutputHandles ↔ 0 < openCount mqiaOpenOutputCount nested)

end QueueReport

/-! ## The role -/

/-- The role that a parameter gives. -/
def roleGiven (np : PCFParameter) : Option Role :=
  match np.value with
  | .int32 v =>
      if np.parameter = mqiaOpenInputCount then if 0 < v then some .input else none
      else if np.parameter = mqiaOpenOutputCount then if 0 < v then some .output else none
      else none
  | _ => none

theorem role_withParam (proc : ProcInfo) (np : PCFParameter) :
    (proc.withParam np).role = (roleGiven np).getD proc.role := by
  obtain ⟨id, type, value⟩ := np
  cases value with
  | int32 v =>
      unfold ProcInfo.withParam ProcInfo.withInt roleGiven
      dsimp only
      simp only [apply_ite ProcInfo.role]
      repeat' split
      all_goals rfl
  | string s =>
      unfold ProcInfo.withParam ProcInfo.withString
      dsimp only
      simp only [apply_ite ProcInfo.role, ite_self]
      rfl
  | _ => rfl

theorem applicationName_withParam (proc : ProcInfo) (np : PCFParameter) :
    (proc.withParam np).applicationName = (applicationGiven np).getD proc.applicationName := by
  obtain ⟨id, type, value⟩ := np
  cases value with
  | int32 v =>
      unfold ProcInfo.withParam ProcInfo.withInt
      dsimp only
      simp only [apply_ite ProcInfo.applicationName, ite_self]
      rfl
  | string s =>
      unfold ProcInfo.withParam ProcInfo.withString applicationGiven
      dsimp only
      simp only [apply_ite ProcInfo.applicationName, ite_self]
      split <;> rfl
  | _ => rfl

/-- The last positive count gives the role. -/
theorem parseProcInfo_role (nested : List PCFParameter) :
    (parseProcInfo nested).role = lastOf roleGiven nested .unknown :=
  foldl_field ProcInfo.role (fun proc np _ => role_withParam proc np) {}

theorem parseProcInfo_applicationName (nested : List PCFParameter) :
    (parseProcInfo nested).applicationName = applicationName nested :=
  foldl_field ProcInfo.applicationName (fun proc np _ => applicationName_withParam proc np) {}

/-- What a parameter says of a role: a positive count gives one, and no other does. -/
theorem roleGiven_cases (np : PCFParameter) :
    match roleGiven np with
    | some .input => ∃ v, np.single mqiaOpenInputCount = some v ∧ 0 < v
    | some .output => ∃ v, np.single mqiaOpenOutputCount = some v ∧ 0 < v
    | some .unknown => False
    | none => ∀ v, np.single mqiaOpenInputCount = some v ∨
        np.single mqiaOpenOutputCount = some v → ¬ 0 < v := by
  obtain ⟨id, type, value⟩ := np
  cases value with
  | int32 v =>
      have hdiffer : mqiaOpenOutputCount ≠ mqiaOpenInputCount := by decide
      unfold roleGiven PCFParameter.single
      dsimp only
      by_cases hinput : id = mqiaOpenInputCount
      · subst hinput
        by_cases hpos : 0 < v
        · simp [hpos]
        · simp [Int32.not_lt.mp hpos, hpos, Ne.symm hdiffer]
      · by_cases houtput : id = mqiaOpenOutputCount
        · subst houtput
          by_cases hpos : 0 < v
          · simp [hpos, hdiffer]
          · simp [Int32.not_lt.mp hpos, hpos, hdiffer]
        · simp [hinput, houtput]
  | _ => rintro v (h | h) <;> cases h

/-- A count that is given once is the count of the group. -/
theorem openCount_eq {id : Int32} {nested : List PCFParameter} (honce : GivenOnce id nested)
    {np : PCFParameter} (hmem : np ∈ nested) {v : Int32} (hv : np.single id = some v) :
    openCount id nested = v := by
  have hgiven : v ∈ nested.filterMap (PCFParameter.single id) :=
    List.mem_filterMap.mpr ⟨np, hmem, hv⟩
  obtain ⟨w, hw⟩ := List.length_eq_one_iff.mp
    (Nat.le_antisymm honce (List.length_pos_of_mem hgiven))
  rw [hw, List.mem_singleton] at hgiven
  rw [openCount, hw, hgiven]
  rfl

/-- What is left at the end comes from an element, or no element gives anything. -/
theorem lastOf_cases {π ν : Type} (given : π → Option ν) (l : List π) (v : ν) :
    (∃ p ∈ l, given p = some (lastOf given l v)) ∨ ∀ p ∈ l, given p = none := by
  by_cases h : ∃ p ∈ l, given p ≠ none
  · obtain ⟨before, p, after, rfl, hp, hafter⟩ := exists_last h
    obtain ⟨u, hu⟩ := Option.ne_none_iff_exists'.mp hp
    exact .inl ⟨p, by simp, by rw [hu, lastOf_split hu hafter]⟩
  · push Not at h
    exact .inr h

theorem not_pos_openCount {id : Int32} {nested : List PCFParameter}
    (h : ∀ np ∈ nested, ∀ v, np.single id = some v → ¬ 0 < v) : ¬ 0 < openCount id nested := by
  unfold openCount
  cases hgiven : nested.filterMap (PCFParameter.single id) with
  | nil => decide
  | cons v vs =>
      obtain ⟨np, hmem, hv⟩ := List.mem_filterMap.mp (hgiven ▸ List.mem_cons_self)
      exact h np hmem v hv

/-- The role names a count that is positive, or there is none. -/
theorem role_cases {nested : List PCFParameter} (hinput : GivenOnce mqiaOpenInputCount nested)
    (houtput : GivenOnce mqiaOpenOutputCount nested) :
    match (parseProcInfo nested).role with
    | .input => 0 < openCount mqiaOpenInputCount nested
    | .output => 0 < openCount mqiaOpenOutputCount nested
    | .unknown => ¬ 0 < openCount mqiaOpenInputCount nested ∧
        ¬ 0 < openCount mqiaOpenOutputCount nested := by
  rw [parseProcInfo_role]
  rcases lastOf_cases roleGiven nested .unknown with ⟨np, hmem, hgiven⟩ | hnone
  · have hcases := roleGiven_cases np
    rw [hgiven] at hcases
    generalize lastOf roleGiven nested .unknown = role at hcases
    cases role with
    | input =>
        obtain ⟨v, hv, hpos⟩ := hcases
        rwa [← openCount_eq hinput hmem hv] at hpos
    | output =>
        obtain ⟨v, hv, hpos⟩ := hcases
        rwa [← openCount_eq houtput hmem hv] at hpos
    | unknown => cases hcases
  · have hleft : ∀ np ∈ nested, ∀ v, np.single mqiaOpenInputCount = some v ∨
        np.single mqiaOpenOutputCount = some v → ¬ 0 < v := by
      intro np hmem
      have hcases := roleGiven_cases np
      rw [hnone np hmem] at hcases
      exact hcases
    rw [lastOf_of_none hnone]
    exact ⟨not_pos_openCount fun np hmem v hv => hleft np hmem v (.inl hv),
      not_pos_openCount fun np hmem v hv => hleft np hmem v (.inr hv)⟩

/-! ## The loop over the processes -/

/-- The process that a parameter gives. -/
def procGiven (p : PCFParameter) : Option ProcInfo :=
  match p.value with
  | .group nested =>
      let proc := parseProcInfo nested
      if proc.applicationName ≠ [] ∨ proc.connectionName ≠ [] ∨ proc.userIdentifier ≠ [] then
        some proc
      else none
  | _ => none

theorem associatedProcs_withParam (stats : QueueStatistics) (p : PCFParameter) :
    (stats.withParam p).associatedProcs = stats.associatedProcs ++ (procGiven p).toList := by
  obtain ⟨id, type, value⟩ := p
  cases value with
  | group nested =>
      unfold QueueStatistics.withParam procGiven
      dsimp only
      split
      · rfl
      · exact (List.append_nil _).symm
  | int32 v =>
      unfold QueueStatistics.withParam QueueStatistics.withInt procGiven
      dsimp only
      simp only [apply_ite QueueStatistics.associatedProcs, ite_self]
      exact (List.append_nil _).symm
  | string s =>
      unfold QueueStatistics.withParam procGiven
      dsimp only
      simp only [apply_ite QueueStatistics.associatedProcs, ite_self]
      exact (List.append_nil _).symm
  | _ => exact (List.append_nil _).symm

/-- The processes are those of the groups, in order. -/
theorem associatedProcs_eq (params : List PCFParameter) :
    (parseQueueStats params).associatedProcs = params.filterMap procGiven := by
  have hfold (stats : QueueStatistics) :
      (params.foldl QueueStatistics.withParam stats).associatedProcs =
        stats.associatedProcs ++ params.filterMap procGiven := by
    induction params generalizing stats with
    | nil => exact (List.append_nil _).symm
    | cons p params ih =>
        rw [List.foldl_cons, ih, associatedProcs_withParam, List.append_assoc,
          List.filterMap_cons]
        congr 1
        cases procGiven p <;> rfl
  exact hfold {}

namespace QueueReport

variable {cfg : Config} {m : QueueReport} {nested : List PCFParameter}

theorem mem_associatedProcs (hmem : nested ∈ m.groups) (hname : applicationName nested ≠ []) :
    parseProcInfo nested ∈ (parseQueueStats m.params).associatedProcs := by
  obtain ⟨p, hp, hgroup⟩ := List.mem_filterMap.mp hmem
  rw [associatedProcs_eq]
  refine List.mem_filterMap.mpr ⟨p, hp, ?_⟩
  obtain ⟨id, type, value⟩ := p
  cases value with
  | group ms =>
      obtain rfl := Option.some.inj hgroup
      rw [← parseProcInfo_applicationName] at hname
      exact if_pos (.inl hname)
  | _ => cases hgroup

/-- What the processing of the message does to the registry. -/
theorem processed (cfg : Config) (m : QueueReport) (c : MetricsCollector) :
    (processStatisticsMessage cfg m.msg c).1 = .ok () ∧
      (processStatisticsMessage cfg m.msg c).2.registry =
        recordQueueStats cfg (m.qmgr cfg) c.session.client.platformString
          (parseQueueStats m.params) c.registry := by
  have hstats : interpret m.hdr m.params "statistics" = .statistics
      { type := "statistics", queueManager := findQueueManager m.params,
        queueStats := some (parseQueueStats m.params) } := by
    unfold interpret parseStatistics
    rw [if_pos (Or.inl m.command), if_pos m.command]
  have hparse : parseMessage m.msg.data "statistics" = .ok (some (.statistics
      { type := "statistics", queueManager := findQueueManager m.params,
        queueStats := some (parseQueueStats m.params) })) := by
    unfold parseMessage
    rw [if_neg (Nat.not_lt.mpr m.long), m.header, Outcome.ok_bind, m.parameters, ← hstats]
    rfl
  unfold processStatisticsMessage
  rw [hparse]
  exact ⟨rfl, rfl⟩

/-- Every process that the parser gives has its turn. -/
theorem hasTurn {proc : ProcInfo} (h : proc ∈ (parseQueueStats m.params).associatedProcs) :
    m.HasTurn cfg proc := by
  obtain ⟨before, after, hprocs⟩ := List.append_of_mem h
  refine ⟨before, after, ?_⟩
  intro c
  obtain ⟨hok, hregistry⟩ := processed cfg m c
  unfold recordQueueStats at hregistry
  rw [hprocs, List.foldl_append, List.foldl_cons] at hregistry
  refine ⟨_, ?_, ?_, hok, hregistry⟩ <;> rfl

/-- A turn sets a series of the family of the role, and none of the other family. -/
theorem turn_sets_iff (proc : ProcInfo) {f : Family}
    (hf : f = .queueInputHandles ∨ f = .queueOutputHandles) :
    (∃ r ls, m.turn cfg r proc f ls ≠ r f ls) ↔ f = handlesFamily proc.role := by
  constructor
  · rintro ⟨r, ls, hset⟩
    by_contra hother
    refine hset ?_
    unfold turn recordProc
    rw [Registry.set_of_ne _ hother, Registry.set_of_ne, Registry.set_of_ne, Registry.set_of_ne]
    all_goals rcases hf with rfl | rfl <;> decide
  · rintro rfl
    obtain ⟨ls, hset⟩ : ∃ ls,
        m.turn cfg (fun _ _ => none) proc (handlesFamily proc.role) ls = some 1 :=
      ⟨_, if_pos ⟨rfl, rfl⟩⟩
    refine ⟨fun _ _ => none, ls, ?_⟩
    rw [hset]
    exact Option.some_ne_none 1

theorem exported_iff (hmem : nested ∈ m.groups) (hname : applicationName nested ≠ [])
    {f : Family} (hf : f = .queueInputHandles ∨ f = .queueOutputHandles) :
    m.Exported cfg nested f ↔ f = handlesFamily (parseProcInfo nested).role := by
  unfold Exported
  rw [turn_sets_iff _ hf]
  exact and_iff_right (hasTurn (mem_associatedProcs hmem hname))

end QueueReport

/-! ## The open modes -/

/-- The processes of a message are exported in the families of their open modes if and only
if each of them has the queue open for input or for output, and not for both. -/
theorem exportsModes_iff (cfg : Config) (m : QueueReport) :
    m.ExportsModes cfg ↔
      ∀ nested ∈ m.groups, applicationName nested ≠ [] →
        (0 < openCount mqiaOpenInputCount nested ↔
          ¬ 0 < openCount mqiaOpenOutputCount nested) := by
  refine forall₃_congr fun nested hmem hname => ?_
  rw [QueueReport.exported_iff hmem hname (.inl rfl),
    QueueReport.exported_iff hmem hname (.inr rfl)]
  have hcases := role_cases (m.input_once nested hmem) (m.output_once nested hmem)
  cases hrole : (parseProcInfo nested).role with
  | input =>
      rw [hrole] at hcases
      have hinput : 0 < openCount mqiaOpenInputCount nested := hcases
      simp [handlesFamily, hinput]
  | output =>
      rw [hrole] at hcases
      have houtput : 0 < openCount mqiaOpenOutputCount nested := hcases
      simp [handlesFamily, houtput]
  | unknown =>
      rw [hrole] at hcases
      obtain ⟨hinput, houtput⟩ := hcases
      simp [handlesFamily, hinput, houtput]

/-- What is said of an application that has the queue open for input and for output. -/
def bothModes : List PcfTree :=
  [.scalar (.string mqcacfApplName 0 ⟨ascii "A", by decide, by decide⟩),
    .scalar (.integer mqiaOpenInputCount 1), .scalar (.integer mqiaOpenOutputCount 1)]

/-- The header of a queue statistics message with one parameter. -/
def queueReportHeader : PCFHeader :=
  { type := 21, strucLength := 36, version := 3, command := cmdStatisticsQ, msgSeqNumber := 1,
    control := 1, compCode := 0, reason := 0, parameterCount := 1 }

/-- A message with that in a group. -/
def bothModesReport : QueueReport where
  msg :=
    { data := queueReportHeader.encode ++ [PcfTree.group 8010 3 bothModes].flatMap PcfTree.encode
      type := QueueType.stats.text }
  hdr := queueReportHeader
  params := [PcfTree.group 8010 3 bothModes].map PcfTree.param
  long := by
    rw [List.length_append, PCFHeader.length_encode]
    exact Nat.le_add_right _ _
  header := parseHeader_encode _ _
  parameters := by
    rw [← queueReportHeader.length_encode, List.drop_left]
    exact parseParameters_trees (by decide)
  command := rfl
  input_once := by decide
  output_once := by decide

/-- The application is not exported among the processes that have the queue open for
input. -/
theorem not_exportsModes_both :
    ¬ ∀ (cfg : Config) (m : QueueReport), m.ExportsModes cfg := by
  intro hall
  have hgroup : paramAll bothModes ∈ bothModesReport.groups := List.mem_cons_self
  have hname : applicationName (paramAll bothModes) ≠ [] := by decide
  obtain ⟨hinput, -⟩ := hall { queueManager := ascii "QM1" } bothModesReport _ hgroup hname
  rw [QueueReport.exported_iff hgroup hname (.inl rfl)] at hinput
  exact absurd (hinput.mpr (by decide)) (by decide)

end IbmmqExporter.Metrics
