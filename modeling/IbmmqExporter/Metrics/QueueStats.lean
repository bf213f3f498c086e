/-
  Metrics/QueueStats.lean --- messages that report several queues.

  A queue statistics message reports each queue in a group of its own, whose members
  lie inside the group's `StrucLength` or follow a 16-byte header.

  WHAT THE FILE PROVES.  `parse_queue_stats` makes one queue of the whole message: it
  does not look into groups for a queue's numbers, and of structures that follow each
  other the last wins.  So each queue gets its own gauges only if there is one queue,
  in the second layout, and the metadata leave its name alone, or in a case that
  comes out right by accident.
-/
import IbmmqExporter.Metrics.Messages
import IbmmqExporter.Pcf.RoundTrip

set_option autoImplicit false

namespace IbmmqExporter.Metrics

open Foundation Pcf Mq

/-! ## Messages -/

/-- Where the members of a group stand. -/
inductive Layout where
  /-- inside the group's `StrucLength` -/
  | inside
  /-- behind a 16-byte header -/
  | following
  deriving DecidableEq, Repr

/-- The report about one queue. -/
structure QueueGroup where
  layout : Layout
  id : Int32
  members : List Scalar

/-- The structures of the report, as the parser frames them. -/
def QueueGroup.trees (g : QueueGroup) : List PcfTree :=
  match g.layout with
  | .inside => [.group g.id (Int32.ofNat g.members.length) (g.members.map .scalar)]
  | .following =>
      .group g.id (Int32.ofNat g.members.length) [] :: g.members.map .scalar

/-- The gauges that are exported for every queue. -/
inductive QueueGauge where
  | depth | highDepth | enqueue | dequeue
  deriving DecidableEq, Repr

/-- The parameter that carries the number. -/
def QueueGauge.id : QueueGauge → Int32
  | .depth => mqiaCurrentQDepth
  | .highDepth => mqiaHighQDepth
  | .enqueue => mqiaMsgEnqCount
  | .dequeue => mqiaMsgDeqCount

/-- The family that shows the number. -/
def QueueGauge.family : QueueGauge → Family
  | .depth => .queueDepth
  | .highDepth => .queueHighDepth
  | .enqueue => .queueEnqueue
  | .dequeue => .queueDequeue

/-- The number that one structure gives under an id. -/
def numberOf (id : Int32) (v : Int32) : Scalar → Int32
  | .integer i w => if i = id then w else v
  | .integer64 i w => if i = id then w else v
  | .string _ _ _ => v

/-- The text that one structure gives under an id. -/
def textOf (id : Int32) (v : Bytes) : Scalar → Bytes
  | .string i _ s => if i = id ∧ s.bytes ≠ [] then s.bytes else v
  | .integer _ _ => v
  | .integer64 _ _ => v

/-- The queue's own number: the one its group states. -/
def QueueGroup.number (g : QueueGroup) (q : QueueGauge) : Int32 :=
  g.members.foldl (numberOf q.id) 0

/-- The queue's name: the one its group states. -/
def QueueGroup.name (g : QueueGroup) : Bytes := g.members.foldl (textOf mqcaQName) []

/-- A structure that gives no queue's name or number. -/
def Scalar.Common (s : Scalar) : Prop :=
  (∀ q : QueueGauge, ∀ v, numberOf q.id v s = v) ∧ ∀ v, textOf mqcaQName v s = v

/-- A queue statistics message: what it says about the queue manager, and a report
for each queue. -/
structure QueueMessage where
  hdr : PCFHeader
  common : List Scalar
  groups : List QueueGroup
  command_eq : hdr.command = cmdStatisticsQ
  common_free : ∀ s ∈ common, Scalar.Common s
  groups_ne : groups ≠ []
  distinct : (groups.map QueueGroup.name).Nodup
  fits : ((common.map PcfTree.scalar ++ groups.flatMap QueueGroup.trees).flatMap
    PcfTree.encode).length < 2 ^ 31

/-- The structures of a message. -/
def QueueMessage.trees (m : QueueMessage) : List PcfTree :=
  m.common.map PcfTree.scalar ++ m.groups.flatMap QueueGroup.trees

/-- The message. -/
def QueueMessage.message (m : QueueMessage) : MQMessage :=
  { data := m.hdr.encode ++ m.trees.flatMap PcfTree.encode, type := QueueType.stats.text }

/-! ## What is asked -/

/-- A series of labels shows a queue: it bears its name and carries its numbers. -/
def Shows (r : Registry) (ls : Labels) (g : QueueGroup) : Prop :=
  ls.lookup queueNameLabel = some g.name ∧
    ∀ q : QueueGauge, r q.family ls = some ((g.number q).toInt : ℚ)

/-- Every queue is shown, and what has been written shows one of them. -/
def KeepsApart (groups : List QueueGroup) (before after : Registry) : Prop :=
  (∀ g ∈ groups, ∃ ls, Shows after ls g) ∧
    ∀ (q : QueueGauge) (ls : Labels), after q.family ls ≠ before q.family ls →
      ∃ g ∈ groups, Shows after ls g

/-- What the metadata make of the value of a label. -/
def Config.relabel (cfg : Config) (n : LabelName) (v : Bytes) : Bytes :=
  (cfg.metadataTags.zip cfg.metadataValues).foldl (fun v e => if e.1 = n then e.2 else v) v

/-- One queue whose report shows as it should. -/
def QueueGroup.Shown (cfg : Config) (g : QueueGroup) : Prop :=
  match g.layout with
  | .following => cfg.relabel queueNameLabel g.name = g.name
  | .inside =>
      cfg.relabel queueNameLabel [] = g.name ∧ ∀ q : QueueGauge, g.number q = 0

/-! ## Labels -/

theorem lookup_addMetaLabels {cfg : Config} {ls : Labels} {n : LabelName} {v : Bytes}
    (h : ls.lookup n = some v) :
    (cfg.addMetaLabels ls).lookup n = some (cfg.relabel n v) := by
  unfold Config.addMetaLabels Config.relabel
  generalize cfg.metadataTags.zip cfg.metadataValues = entries
  induction entries generalizing ls v with
  | nil => exact h
  | cons e entries ih =>
      rw [List.foldl_cons, List.foldl_cons]
      apply ih
      by_cases hn : e.1 = n
      · subst hn
        rw [if_pos rfl]
        exact Finmap.lookup_insert _
      · rw [if_neg hn, Finmap.lookup_insert_of_ne _ (Ne.symm hn)]
        exact h

theorem lookup_queueLabels (cfg : Config) (qmgr plat name : Bytes) :
    (queueLabels cfg qmgr plat name).lookup queueNameLabel =
      some (cfg.relabel queueNameLabel name) := by
  apply lookup_addMetaLabels
  rw [lookup_labels_cons, if_neg (by decide), lookup_labels_cons, if_pos rfl]

/-! ## What the parser makes of the message -/

/-- The number that is exported. -/
def gaugeOf (stats : QueueStatistics) : QueueGauge → Int32
  | .depth => stats.currentDepth
  | .highDepth => stats.highDepth
  | .enqueue => stats.enqueueCount
  | .dequeue => stats.dequeueCount

theorem gaugeOf_withParam_group (stats : QueueStatistics) (id type : Int32)
    (nested : List PCFParameter) (q : QueueGauge) :
    gaugeOf (stats.withParam ⟨id, type, .group nested⟩) q = gaugeOf stats q ∧
      (stats.withParam ⟨id, type, .group nested⟩).queueName = stats.queueName := by
  unfold QueueStatistics.withParam
  dsimp only
  split
  · exact ⟨by cases q <;> rfl, rfl⟩
  · exact ⟨rfl, rfl⟩

theorem gaugeOf_withInt (stats : QueueStatistics) (id v : Int32) (q : QueueGauge) :
    gaugeOf (stats.withInt id v) q = (if id = q.id then v else gaugeOf stats q) ∧
      (stats.withInt id v).queueName = stats.queueName := by
  -- where the id is one of the six cases of the `switch`, both sides compute
  by_cases h₁ : id = mqiaCurrentQDepth
  · subst h₁
    exact ⟨by cases q <;> rfl, rfl⟩
  by_cases h₂ : id = mqiaHighQDepth
  · subst h₂
    exact ⟨by cases q <;> rfl, rfl⟩
  by_cases h₃ : id = mqiaOpenInputCount
  · subst h₃
    exact ⟨by cases q <;> rfl, rfl⟩
  by_cases h₄ : id = mqiaOpenOutputCount
  · subst h₄
    exact ⟨by cases q <;> rfl, rfl⟩
  by_cases h₅ : id = mqiaMsgEnqCount
  · subst h₅
    exact ⟨by cases q <;> rfl, rfl⟩
  by_cases h₆ : id = mqiaMsgDeqCount
  · subst h₆
    exact ⟨by cases q <;> rfl, rfl⟩
  unfold QueueStatistics.withInt
  rw [if_neg h₁, if_neg h₂, if_neg h₃, if_neg h₄, if_neg h₅, if_neg h₆]
  refine ⟨(if_neg ?_).symm, rfl⟩
  cases q with
  | depth => exact h₁
  | highDepth => exact h₂
  | enqueue => exact h₅
  | dequeue => exact h₆

theorem gaugeOf_withParam_scalar (stats : QueueStatistics) (s : Scalar) (q : QueueGauge) :
    gaugeOf (stats.withParam s.param) q = numberOf q.id (gaugeOf stats q) s ∧
      (stats.withParam s.param).queueName = textOf mqcaQName stats.queueName s := by
  cases s with
  | integer id v => exact gaugeOf_withInt stats id v q
  | integer64 id v => exact gaugeOf_withInt stats id v q
  | string id ccsid s =>
      by_cases hnil : s.bytes = []
      · have hparam : (Scalar.string id ccsid s).param = ⟨id, mqcftString, .monostate⟩ := by
          simp [Scalar.param, hnil]
        rw [hparam]
        exact ⟨rfl, (if_neg fun h => h.2 hnil).symm⟩
      · have hparam : (Scalar.string id ccsid s).param = ⟨id, mqcftString, .string s.bytes⟩ := by
          simp [Scalar.param, hnil]
        rw [hparam]
        by_cases hid : id = mqcaQName
        · subst hid
          exact ⟨by cases q <;> rfl, (if_pos ⟨rfl, hnil⟩).symm⟩
        · have hstats : stats.withParam ⟨id, mqcftString, .string s.bytes⟩ = stats := if_neg hid
          rw [hstats]
          exact ⟨rfl, (if_neg fun h => hid h.1).symm⟩

/-- Of structures that follow each other the last wins. -/
theorem gaugeOf_foldl_scalars (ss : List Scalar) (stats : QueueStatistics) (q : QueueGauge) :
    gaugeOf ((ss.map Scalar.param).foldl QueueStatistics.withParam stats) q =
        ss.foldl (numberOf q.id) (gaugeOf stats q) ∧
      ((ss.map Scalar.param).foldl QueueStatistics.withParam stats).queueName =
        ss.foldl (textOf mqcaQName) stats.queueName := by
  induction ss generalizing stats with
  | nil => exact ⟨rfl, rfl⟩
  | cons s ss ih =>
      obtain ⟨hgauge, hname⟩ := gaugeOf_withParam_scalar stats s q
      rw [List.map_cons, List.foldl_cons, List.foldl_cons, List.foldl_cons, ← hgauge, ← hname]
      exact ih _

theorem foldl_common {common : List Scalar} (h : ∀ s ∈ common, Scalar.Common s) (q : QueueGauge)
    (v : Int32) (name : Bytes) :
    common.foldl (numberOf q.id) v = v ∧ common.foldl (textOf mqcaQName) name = name := by
  induction common with
  | nil => exact ⟨rfl, rfl⟩
  | cons s common ih =>
      obtain ⟨hnumber, htext⟩ := h s List.mem_cons_self
      rw [List.foldl_cons, List.foldl_cons, hnumber q v, htext name]
      exact ih fun s' hs' => h s' (List.mem_cons_of_mem s hs')

/-- The queue that the parser makes of a message. -/
def QueueMessage.parsed (m : QueueMessage) : QueueStatistics :=
  parseQueueStats (m.trees.map PcfTree.param)

/-- The parser's queue, when the message reports one. -/
theorem parsed_singleton {m : QueueMessage} {g : QueueGroup} (hg : m.groups = [g])
    (q : QueueGauge) :
    gaugeOf m.parsed q = (match g.layout with | .inside => 0 | .following => g.number q) ∧
      m.parsed.queueName = (match g.layout with | .inside => [] | .following => g.name) := by
  have hcommon := gaugeOf_foldl_scalars m.common {} q
  obtain ⟨hnumber, htext⟩ := foldl_common m.common_free q (gaugeOf {} q) ([] : Bytes)
  rw [hnumber, htext] at hcommon
  have hparams : m.trees.map PcfTree.param =
      m.common.map Scalar.param ++ g.trees.map PcfTree.param := by
    unfold QueueMessage.trees
    rw [hg, List.flatMap_singleton, List.map_append, List.map_map]
    rfl
  unfold QueueMessage.parsed parseQueueStats
  rw [hparams, List.foldl_append]
  generalize (m.common.map Scalar.param).foldl QueueStatistics.withParam {} = stats at hcommon ⊢
  obtain ⟨hgauge, hname⟩ := hcommon
  unfold QueueGroup.trees
  cases hl : g.layout with
  | inside =>
      obtain ⟨h₁, h₂⟩ := gaugeOf_withParam_group stats g.id mqcftGroup
        (paramAll (g.members.map .scalar)) q
      refine ⟨h₁.trans ?_, h₂.trans hname⟩
      rw [hgauge]
      cases q <;> rfl
  | following =>
      obtain ⟨h₁, h₂⟩ := gaugeOf_withParam_group stats g.id mqcftGroup [] q
      have hmembers := gaugeOf_foldl_scalars g.members
        (stats.withParam ⟨g.id, mqcftGroup, .group []⟩) q
      rw [h₁, h₂, hgauge, hname] at hmembers
      have hparam : (g.members.map PcfTree.scalar).map PcfTree.param =
          g.members.map Scalar.param := by
        rw [List.map_map]
        rfl
      rw [List.map_cons, List.foldl_cons, hparam]
      refine ⟨hmembers.1.trans ?_, hmembers.2⟩
      cases q <;> rfl

/-! ## What is exported -/

theorem recordProc_gauge (cfg : Config) (qmgr queueName : Bytes) (r : Registry)
    (proc : ProcInfo) (q : QueueGauge) :
    recordProc cfg qmgr queueName r proc q.family = r q.family := by
  have hhandles : q.family ≠ handlesFamily proc.role := by
    cases q <;> cases proc.role <;> exact fun h => by cases h
  funext ls
  unfold recordProc
  rw [Registry.set_of_ne _ hhandles,
    Registry.set_of_ne _ (by cases q <;> exact fun h => by cases h),
    Registry.set_of_ne _ (by cases q <;> exact fun h => by cases h),
    Registry.set_of_ne _ (by cases q <;> exact fun h => by cases h)]

/-- The gauges of the parser's queue, and nothing else in their families. -/
theorem recordQueueStats_gauge (cfg : Config) (qmgr plat : Bytes) (qs : QueueStatistics)
    (r : Registry) (q : QueueGauge) (ls : Labels) :
    recordQueueStats cfg qmgr plat qs r q.family ls =
      if ls = queueLabels cfg qmgr plat qs.queueName then some ((gaugeOf qs q).toInt : ℚ)
      else r q.family ls := by
  have hprocs (procs : List ProcInfo) (r : Registry) :
      procs.foldl (recordProc cfg qmgr qs.queueName) r q.family = r q.family := by
    induction procs generalizing r with
    | nil => rfl
    | cons proc procs ih =>
        rw [List.foldl_cons, ih]
        exact recordProc_gauge cfg qmgr qs.queueName r proc q
  unfold recordQueueStats
  rw [hprocs]
  cases q <;> simp [QueueGauge.family, gaugeOf]

/-- The collector after a message. -/
def processed (cfg : Config) (c : MetricsCollector) (m : QueueMessage) : MetricsCollector :=
  (processStatisticsMessage cfg m.message c).2

/-- The labels under which the message is exported. -/
def exportLabels (cfg : Config) (c : MetricsCollector) (m : QueueMessage) : Labels :=
  queueLabels cfg
    (if findQueueManager (m.trees.map PcfTree.param) = [] then cfg.queueManager
      else findQueueManager (m.trees.map PcfTree.param))
    c.session.client.platformString m.parsed.queueName

theorem processed_gauge (cfg : Config) (c : MetricsCollector) (m : QueueMessage) (q : QueueGauge)
    (ls : Labels) :
    (processed cfg c m).registry q.family ls =
      if ls = exportLabels cfg c m then some ((gaugeOf m.parsed q).toInt : ℚ)
      else c.registry q.family ls := by
  have hlen : ∀ t ∈ m.trees, t.encode.length < 2 ^ 31 := by
    intro t ht
    exact Nat.lt_of_le_of_lt (Framing.length_le_flatMap _ ht) m.fits
  have hstats : interpret m.hdr (m.trees.map PcfTree.param) "statistics" = .statistics
      { type := "statistics", queueManager := findQueueManager (m.trees.map PcfTree.param),
        queueStats := some m.parsed } := by
    unfold interpret parseStatistics
    rw [if_pos (Or.inl m.command_eq), if_pos m.command_eq]
    rfl
  have hparse : parseMessage m.message.data "statistics" = .ok (some (.statistics
      { type := "statistics", queueManager := findQueueManager (m.trees.map PcfTree.param),
        queueStats := some m.parsed })) := by
    unfold QueueMessage.message
    rw [parseMessage_eq hlen, hstats]
  have hregistry : (processed cfg c m).registry = recordQueueStats cfg
      (if findQueueManager (m.trees.map PcfTree.param) = [] then cfg.queueManager
        else findQueueManager (m.trees.map PcfTree.param))
      c.session.client.platformString m.parsed c.registry := by
    unfold processed processStatisticsMessage
    rw [hparse]
    rfl
  rw [hregistry]
  exact recordQueueStats_gauge ..

theorem lookup_exportLabels (cfg : Config) (c : MetricsCollector) (m : QueueMessage) :
    (exportLabels cfg c m).lookup queueNameLabel =
      some (cfg.relabel queueNameLabel m.parsed.queueName) :=
  lookup_queueLabels ..

/-- What is written of the message bears the name of a reported queue, and has its
numbers. -/
def QueueMessage.Depicts (cfg : Config) (m : QueueMessage) (g : QueueGroup) : Prop :=
  cfg.relabel queueNameLabel m.parsed.queueName = g.name ∧
    ∀ q : QueueGauge, gaugeOf m.parsed q = g.number q

/-- A queue shown after the message on an empty registry is shown under the labels of
the message. -/
theorem shows_processed {cfg : Config} {m : QueueMessage} {ls : Labels} {g : QueueGroup}
    (h : Shows (processed cfg {} m).registry ls g) : m.Depicts cfg g := by
  obtain ⟨hname, hnumbers⟩ := h
  have hls : ls = exportLabels cfg {} m := by
    by_contra hne
    have hdepth := hnumbers .depth
    rw [processed_gauge, if_neg hne] at hdepth
    cases hdepth
  subst hls
  refine ⟨?_, ?_⟩
  · rw [lookup_exportLabels] at hname
    exact Option.some.inj hname
  · intro q
    have hq := hnumbers q
    rw [processed_gauge, if_pos rfl] at hq
    exact Int32.toInt.inj (Int.cast_injective (Option.some.inj hq))

namespace QueueMessage

variable {cfg : Config} {m : QueueMessage} {g : QueueGroup}

theorem Depicts.shows (h : m.Depicts cfg g) (c : MetricsCollector) :
    Shows (processed cfg c m).registry (exportLabels cfg c m) g := by
  refine ⟨?_, fun q => ?_⟩
  · rw [lookup_exportLabels, h.1]
  · rw [processed_gauge, if_pos rfl, h.2 q]

/-- One queue alone is depicted if it is reported as it should be. -/
theorem depicts_iff (hg : m.groups = [g]) : m.Depicts cfg g ↔ g.Shown cfg := by
  have hparsed := parsed_singleton hg
  unfold Depicts QueueGroup.Shown
  rw [(hparsed .depth).2]
  cases hl : g.layout with
  | following =>
      refine and_iff_left fun q => ?_
      rw [(hparsed q).1, hl]
  | inside =>
      refine and_congr_right fun _ => forall_congr' fun q => ?_
      rw [(hparsed q).1, hl]
      exact eq_comm

/-- A message depicts no two queues: they would bear one name. -/
theorem groups_singleton (h : ∀ g ∈ m.groups, m.Depicts cfg g) : ∃ g, m.groups = [g] := by
  obtain ⟨g, rest, hg⟩ := List.exists_cons_of_ne_nil m.groups_ne
  rcases rest with _ | ⟨g', rest⟩
  · exact ⟨g, hg⟩
  · have hname := (h g (hg ▸ List.mem_cons_self)).1.symm.trans
      (h g' (hg ▸ List.mem_cons_of_mem g List.mem_cons_self)).1
    have hnodup := m.distinct
    rw [hg, List.map_cons, List.map_cons, List.nodup_cons] at hnodup
    exact absurd (hname ▸ List.mem_cons_self) hnodup.1

end QueueMessage

/-- Every queue of a message gets its own gauges if and only if the message reports
one queue, and reports it in the second layout under a name that the metadata leave
alone, or in the first layout with nothing but zeros under the name that the metadata
put in the place of the empty one. -/
theorem keepsApart_iff (cfg : Config) (m : QueueMessage) :
    (∀ c : MetricsCollector, KeepsApart m.groups c.registry (processed cfg c m).registry) ↔
      ∃ g, m.groups = [g] ∧ g.Shown cfg := by
  constructor
  · intro h
    have hall (g : QueueGroup) (hg : g ∈ m.groups) : m.Depicts cfg g := by
      obtain ⟨ls, hls⟩ := (h {}).1 g hg
      exact shows_processed hls
    obtain ⟨g, hg⟩ := QueueMessage.groups_singleton hall
    exact ⟨g, hg, (QueueMessage.depicts_iff hg).mp (hall g (hg ▸ List.mem_cons_self))⟩
  · rintro ⟨g, hg, hshown⟩ c
    have hshows := ((QueueMessage.depicts_iff hg).mpr hshown).shows c
    rw [hg]
    refine ⟨fun g' hg' => ?_, fun q ls hne => ?_⟩
    · rw [List.mem_singleton.mp hg']
      exact ⟨_, hshows⟩
    · have hls : ls = exportLabels cfg c m := by
        by_contra hother
        rw [processed_gauge, if_neg hother] at hne
        exact hne rfl
      rw [hls]
      exact ⟨g, List.mem_singleton_self g, hshows⟩

/-- The report of a queue with a name of one letter and a depth. -/
def depthReport (letter : UInt8) (h : letter ≠ nul ∧ letter ≠ blank) (depth : Int32) :
    QueueGroup :=
  { layout := .following
    id := 8010
    members :=
      [.string mqcaQName 0 ⟨[letter], by simpa using h.1, by simpa using h.2⟩,
       .integer mqiaCurrentQDepth depth] }

/-- A message that reports a queue `A` with five messages and a queue `B` with seven. -/
def twoQueues : QueueMessage where
  hdr :=
    { type := 21, strucLength := 36, version := 3, command := cmdStatisticsQ,
      msgSeqNumber := 1, control := 1, compCode := 0, reason := 0, parameterCount := 2 }
  common := []
  groups := [depthReport 65 (by decide) 5, depthReport 66 (by decide) 7]
  command_eq := rfl
  common_free := fun _ h => absurd h List.not_mem_nil
  groups_ne := List.cons_ne_nil _ _
  distinct := by decide
  fits := by decide +kernel

/-- Of `twoQueues` only one queue is shown. -/
theorem not_keepsApart_twoQueues :
    ¬ ∀ (cfg : Config) (m : QueueMessage) (c : MetricsCollector),
      KeepsApart m.groups c.registry (processed cfg c m).registry := by
  intro h
  obtain ⟨hall, -⟩ := h { queueManager := ascii "QM1" } twoQueues {}
  obtain ⟨lsA, hA⟩ := hall (depthReport 65 (by decide) 5) List.mem_cons_self
  obtain ⟨lsB, hB⟩ := hall (depthReport 66 (by decide) 7)
    (List.mem_cons_of_mem _ List.mem_cons_self)
  have hnames := (shows_processed hA).1.symm.trans (shows_processed hB).1
  exact absurd hnames (by decide)

end IbmmqExporter.Metrics
