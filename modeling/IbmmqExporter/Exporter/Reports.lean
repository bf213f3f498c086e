/-
  Exporter/Reports.lean --- what the queue manager reports in a cycle.

  Between the messages and the publications a cycle asks: for the queues, for the depth
  and the handles of each, and for statuses.  The answers to all of it are a report, and a
  report has a meaning of its own: values for the series of measurements.

  WHAT THE FILE PROVES.  Where an inquiry has no more replies than `send_pcf_command` reads,
  none is longer than its buffer, and the records are complete: whatever they say, in
  whatever order the parameters stand in the replies, `collectGauges` returns, and of every
  series the registry reads the last value that the report has for it, or what it read
  before (`gauges_exported`).
-/
import IbmmqExporter.Exporter.Cycle
import IbmmqExporter.Metrics.Reports

set_option autoImplicit false

namespace IbmmqExporter.Exporter

open Foundation Effect Mq
open Metrics (Clock Collect Registry Renders Report Sample SelectionConfig)

/-! ## Statuses -/

/-- What is reported of the statuses. -/
structure StatusReport where
  qmgr : Report Pcf.qmgrStatusParser Pcf.qmgrStatusFormat
  channels : List (Report Pcf.channelStatusParser Pcf.channelStatusFormat)
  topics : List (Report Pcf.topicStatusParser Pcf.topicStatusFormat)
  subs : List (Report Pcf.subStatusParser Pcf.subStatusFormat)
  clusters : Report Pcf.clusterQmgrParser Pcf.clusterQmgrFormat
  queues : Option (Report Pcf.queueOnlineStatusParser Pcf.queueOnlineStatusFormat)
  usage : Option (Report Pcf.bufferPoolParser Pcf.bufferPoolFormat ×
    Report Pcf.usagePsParser Pcf.usagePsFormat)

namespace StatusReport

/-- There is a report for each inquiry: for each pattern of the configuration, for the
queues if there are any, and on z/OS for the buffer pools and the page sets. -/
structure Fits (cfg : Config) (plat : Int32) (cachedQueues : List Bytes) (x : StatusReport) :
    Prop where
  channels : (Metrics.channelPatterns cfg.monitoredChannels).length = x.channels.length
  topics : cfg.monitoredTopics.length = x.topics.length
  subs : cfg.monitoredSubscriptions.length = x.subs.length
  queues : x.queues.isSome = true ↔ cachedQueues ≠ []
  usage : x.usage.isSome = true ↔ plat = Platform.zos

/-- The answers in the order of the calls. -/
def answers (x : StatusReport) : List Reply :=
  x.qmgr.answers ++ (x.channels.flatMap Report.answers ++ (x.topics.flatMap Report.answers ++
    (x.subs.flatMap Report.answers ++ (x.clusters.answers ++
      (x.queues.toList.flatMap Report.answers ++
        x.usage.toList.flatMap fun u => u.1.answers ++ u.2.answers)))))

/-- What it means for the series. -/
def samples (cfg : Metrics.Config) (plat : Int32) (clock : Clock) (cachedQueues : List Bytes)
    (x : StatusReport) : List Sample :=
  Metrics.qmgrSamples cfg plat clock x.qmgr.records.head? ++
    (((x.channels.flatMap Report.records).flatMap fun ch =>
      cfg.samples (.channel plat ch) (Metrics.channelValues ch)) ++
    (((x.topics.flatMap Report.records).flatMap fun t =>
      cfg.samples (.topic plat t) (Metrics.topicValues t)) ++
    (((x.subs.flatMap Report.records).flatMap fun s =>
      cfg.samples (.sub plat s) (Metrics.subValues s)) ++
    ((x.clusters.records.flatMap fun cl =>
      cfg.samples (.cluster plat cl) (Metrics.clusterValues cl)) ++
    ((((x.queues.toList.flatMap Report.records).filter fun qs =>
        cachedQueues.contains qs.queueName).flatMap fun qs =>
      cfg.samples (.queueOnline plat qs.queueName) (Metrics.queueOnlineValues qs)) ++
    x.usage.toList.flatMap fun u =>
      ((u.1.records.map Pcf.BufferPool.details).flatMap fun bp =>
        cfg.samples (.usageBp plat bp) (Metrics.usageBpValues bp)) ++
      u.2.records.flatMap fun ps =>
        cfg.samples (.usagePs plat ps) (Metrics.usagePsValues ps))))))

end StatusReport

section Statuses

variable {cfg : Config} {clock : Clock} {c : MQClient} {cachedQueues : List Bytes}

theorem renders_attempt {p : Collect Unit} {answers : List Reply} {samples : List Sample}
    (hp : Renders c p answers () samples) : Renders c (attempt p) answers () samples := hp.caught

/-- The statuses are exported as they are reported. -/
theorem renders_collectStatuses (hc : c.connected = true) {x : StatusReport}
    (hx : x.Fits cfg c.platform cachedQueues) :
    Renders c (collectStatuses cfg clock cachedQueues) x.answers ()
      (x.samples cfg.metrics c.platform clock cachedQueues) := by
  refine Renders.then (renders_attempt (Metrics.renders_collectQmgrStatus hc clock x.qmgr)) ?_
  refine Renders.then (renders_attempt (Metrics.renders_collectChannelStatus hc hx.channels)) ?_
  refine Renders.then (renders_attempt (Metrics.renders_collectTopicStatus hc hx.topics)) ?_
  refine Renders.then (renders_attempt (Metrics.renders_collectSubStatus hc hx.subs)) ?_
  refine Renders.then (renders_attempt (Metrics.renders_collectClusterStatus hc x.clusters)) ?_
  refine Renders.then (renders_attempt (Metrics.renders_collectQueueOnlineStatus hc hx.queues)) ?_
  refine Metrics.renders_reads (fun _ _ hm => congrArg MQClient.platform hm.client) ?_
  unfold when
  cases husage : x.usage with
  | none =>
      have hzos := mt hx.usage.mpr
      rw [husage] at hzos
      rw [if_neg (hzos nofun)]
      exact Metrics.renders_pure ()
  | some u =>
      rw [if_pos (hx.usage.mp (by rw [husage]; rfl)), Option.toList_some, List.flatMap_singleton,
        List.flatMap_singleton]
      exact renders_attempt (Metrics.renders_collectUsageStatus hc u.1 u.2)

end Statuses

/-! ## Queues -/

/-- What is reported of the queues there are. -/
structure SelectionReport where
  byPattern : List Discovery
  all : Option Discovery

namespace SelectionReport

/-- There is a discovery for each pattern that is not negated, and if none of them finds a
queue, one for all queues, unless no queue is to be monitored. -/
structure Fits (cfg : SelectionConfig) (x : SelectionReport) : Prop where
  byPattern : (cfg.monitoredQueues.filter fun pattern => !Metrics.isNegated pattern).length =
    x.byPattern.length
  all : x.all.isSome = true ↔ ¬ (cfg.monitorAllQueues = false ∧ cfg.monitoredQueues = []) ∧
    x.byPattern.flatMap Discovery.found = []

/-- The answers in the order of the calls. -/
def answers (x : SelectionReport) : List Reply :=
  x.byPattern.flatMap Discovery.answers ++ x.all.toList.flatMap Discovery.answers

/-- The queues that are selected of those that are found. -/
def queues (cfg : SelectionConfig) (x : SelectionReport) : List Bytes :=
  cfg.select (x.byPattern.flatMap Discovery.found ++ x.all.toList.flatMap Discovery.found)

end SelectionReport

section Queues

variable {cfg : Metrics.Config} {c : MQClient} (hc : c.connected = true)
include hc

theorem renders_discoverPatterns {patterns found : List Bytes} {xs : List Discovery}
    (hlength : (patterns.filter fun pattern => !Metrics.isNegated pattern).length = xs.length) :
    Renders c (Metrics.discoverPatterns (fun pattern => Metrics.session (discoverQueues pattern))
      patterns found) (xs.flatMap Discovery.answers) (found ++ xs.flatMap Discovery.found) [] := by
  induction patterns generalizing found xs with
  | nil =>
      obtain rfl := List.eq_nil_of_length_eq_zero hlength.symm
      show Renders c (pure found) [] (found ++ []) []
      rw [List.append_nil]
      exact Metrics.renders_pure found
  | cons pattern patterns ih =>
      unfold Metrics.discoverPatterns
      cases hnegated : Metrics.isNegated pattern with
      | true =>
          rw [if_pos rfl]
          rw [List.filter_cons_of_neg (by simp [hnegated])] at hlength
          exact ih hlength
      | false =>
          rw [if_neg Bool.false_ne_true]
          rw [List.filter_cons_of_pos (by simp [hnegated])] at hlength
          obtain ⟨x, xs, rfl⟩ := List.exists_cons_of_length_eq_add_one hlength.symm
          rw [List.flatMap_cons, List.flatMap_cons, ← List.append_assoc]
          have hfirst := Metrics.renders_session (returns_discoverQueues hc x pattern)
          exact hfirst.then (ih (Nat.succ.inj hlength))

/-- The queues are selected of those that are reported. -/
theorem renders_getQueuesToMonitor {selection : SelectionConfig} {x : SelectionReport}
    (hx : x.Fits selection) :
    Renders c (Metrics.getQueuesToMonitor selection) x.answers (x.queues selection) [] := by
  unfold Metrics.getQueuesToMonitor SelectionReport.answers SelectionReport.queues
  rw [Metrics.selectQueues_eq]
  refine Metrics.Renders.map ?_ _
  have hpatterns := @renders_discoverPatterns c hc _ [] _ hx.byPattern
  rw [List.nil_append] at hpatterns
  unfold Metrics.foundQueues
  by_cases hoff : selection.monitorAllQueues = false ∧ selection.monitoredQueues = []
  · rw [if_pos hoff]
    have hnone : x.byPattern = [] := by
      have hlength := hx.byPattern
      rw [hoff.2] at hlength
      exact List.eq_nil_of_length_eq_zero hlength.symm
    have hall : x.all = none :=
      Option.not_isSome_iff_eq_none.mp fun hsome => (hx.all.mp hsome).1 hoff
    rw [hnone, hall]
    exact Metrics.renders_pure []
  · rw [if_neg hoff]
    refine hpatterns.then ?_
    cases hall : x.all with
    | none =>
        have hfound : x.byPattern.flatMap Discovery.found ≠ [] := by
          intro hempty
          have hsome := hx.all.mpr ⟨hoff, hempty⟩
          rw [hall] at hsome
          cases hsome
        rw [if_pos hfound]
        show Renders c (pure _) [] (_ ++ []) []
        rw [List.append_nil]
        exact Metrics.renders_pure _
    | some y =>
        obtain ⟨-, hempty⟩ := hx.all.mp (hall ▸ rfl)
        rw [hempty, if_neg (not_not.mpr rfl), Option.toList_some, List.flatMap_singleton,
          List.flatMap_singleton]
        exact Metrics.renders_session (returns_discoverQueues hc y _)

/-- A loop over queues that asks for each of them. -/
theorem renders_queueInfos {queues : List Bytes} {xs : List Inquired}
    (hlength : queues.length = xs.length) {write : Bytes → QueueInfo → Registry → Registry}
    {written : Bytes → QueueInfo → List Sample}
    (hwrite : ∀ qname info r, write qname info r = r.put (written qname info)) :
    Renders c (forEach queues fun qname => do
      let info ← Metrics.session (getQueueInfo qname)
      match info with
      | none => return
      | some info => Metrics.record (write qname info)) (xs.flatMap Inquired.answers) ()
      ((queues.zip xs).flatMap fun e => (e.2.info e.1).toList.flatMap (written e.1)) := by
  induction xs generalizing queues with
  | nil =>
      obtain rfl := List.eq_nil_of_length_eq_zero hlength
      exact Metrics.renders_pure ()
  | cons x xs ih =>
      obtain ⟨qname, queues, rfl⟩ := List.exists_cons_of_length_eq_add_one hlength
      rw [List.zip_cons_cons, List.flatMap_cons, List.flatMap_cons]
      refine @Renders.then Unit Unit c _ _ _ _ () () _ _ ?_ (ih (Nat.succ.inj hlength))
      refine (Metrics.renders_session (returns_getQueueInfo hc x qname)).finally ?_
      cases x.info qname with
      | none => exact Metrics.renders_pure ()
      | some info =>
          refine Metrics.renders_record fun r => ?_
          rw [Option.toList_some, List.flatMap_singleton]
          exact hwrite qname info r

/-- The depth of a queue. -/
def depthSamples (cfg : Metrics.Config) (plat : Int32) (info : QueueInfo) : List Sample :=
  cfg.samples (.queueInfo plat info.queueName)
    [(.queueDepth, info.currentDepth.toInt), (.queueMaxDepth, info.maxQueueDepth.toInt)]

/-- The handles of a queue, as far as there are any. -/
def handleSamples (cfg : Metrics.Config) (qname : Bytes) (info : QueueInfo) : List Sample :=
  cfg.samples (.handleCounts qname)
    ((if 0 < info.openInputCount then [(.queueInputHandles, (info.openInputCount.toInt : ℚ))]
      else []) ++
      if 0 < info.openOutputCount then [(.queueOutputHandles, (info.openOutputCount.toInt : ℚ))]
      else [])

theorem renders_collectAndUpdateQueueMetrics {cachedQueues : List Bytes} {xs : List Inquired}
    (hlength : cachedQueues.length = xs.length) :
    Renders c (Metrics.collectAndUpdateQueueMetrics cfg cachedQueues)
      (xs.flatMap Inquired.answers) ()
      ((cachedQueues.zip xs).flatMap fun e =>
        (e.2.info e.1).toList.flatMap (depthSamples cfg c.platform)) := by
  refine Metrics.renders_connected ?_
  rw [if_neg (by rw [hc]; nofun)]
  refine Metrics.renders_platform ?_
  exact @renders_queueInfos c hc _ _ hlength _ (fun _ => depthSamples cfg c.platform)
    fun _ _ _ => rfl

theorem renders_collectAndUpdateHandleMetrics {cachedQueues : List Bytes} {xs : List Inquired}
    (hlength : cachedQueues.length = xs.length) :
    Renders c (Metrics.collectAndUpdateHandleMetrics cfg cachedQueues)
      (xs.flatMap Inquired.answers) ()
      ((cachedQueues.zip xs).flatMap fun e =>
        (e.2.info e.1).toList.flatMap (handleSamples cfg e.1)) := by
  refine Metrics.renders_connected ?_
  rw [if_neg (by rw [hc]; nofun)]
  split
  · next hnone =>
      rw [hnone] at hlength ⊢
      obtain rfl := List.eq_nil_of_length_eq_zero hlength.symm
      exact Metrics.renders_pure ()
  · refine renders_queueInfos hc hlength fun qname info r => ?_
    unfold handleSamples Metrics.recordHandles
    split
    · split
      · rfl
      · rfl
    · split
      · rfl
      · rfl

end Queues

/-! ## The gauges of a cycle -/

/-- What is reported in a cycle between the messages and the publications. -/
structure GaugesReport where
  selection : SelectionReport
  depths : List Inquired
  handles : List Inquired
  statuses : Option StatusReport

namespace GaugesReport

/-- The queues that are asked about. -/
def queues (cfg : Config) (x : GaugesReport) : List Bytes :=
  x.selection.queues cfg.queues.selection

/-- There is a report for everything that is asked. -/
structure Fits (cfg : Config) (plat : Int32) (x : GaugesReport) : Prop where
  selection : x.selection.Fits cfg.queues.selection
  depths : (x.queues cfg).length = x.depths.length
  handles : (x.queues cfg).length = x.handles.length
  asked : x.statuses.isSome = true ↔ cfg.useStatus = true
  statuses : ∀ y ∈ x.statuses, y.Fits cfg plat (x.queues cfg)

/-- The answers in the order of the calls. -/
def answers (x : GaugesReport) : List Reply :=
  x.selection.answers ++ (x.depths.flatMap Inquired.answers ++
    (x.handles.flatMap Inquired.answers ++ x.statuses.toList.flatMap StatusReport.answers))

/-- What it means for the series. -/
def samples (cfg : Config) (plat : Int32) (clock : Clock) (x : GaugesReport) : List Sample :=
  (((x.queues cfg).zip x.depths).flatMap fun e =>
      (e.2.info e.1).toList.flatMap (depthSamples cfg.metrics plat)) ++
    ((((x.queues cfg).zip x.handles).flatMap fun e =>
        (e.2.info e.1).toList.flatMap (handleSamples cfg.metrics e.1)) ++
      x.statuses.toList.flatMap (StatusReport.samples cfg.metrics plat clock (x.queues cfg)))

end GaugesReport

theorem renders_collectGauges {cfg : Config} {clock : Clock} {c : MQClient} {x : GaugesReport}
    (hc : c.connected = true) (hx : x.Fits cfg c.platform) :
    Renders c (collectGauges cfg clock) x.answers () (x.samples cfg c.platform clock) := by
  show Renders c _ (_ ++ _) () ([] ++ _)
  refine Renders.then (renders_getQueuesToMonitor hc hx.selection) ?_
  refine Renders.then (renders_attempt (renders_collectAndUpdateQueueMetrics hc hx.depths)) ?_
  refine Renders.then (renders_attempt (renders_collectAndUpdateHandleMetrics hc hx.handles)) ?_
  refine Metrics.renders_connected ?_
  unfold when
  cases hstatuses : x.statuses with
  | none =>
      have hunused := mt hx.asked.mpr
      rw [hstatuses] at hunused
      rw [if_neg fun h => hunused nofun h.1]
      exact Metrics.renders_pure ()
  | some y =>
      rw [if_pos ⟨hx.asked.mp (hstatuses ▸ rfl), hc⟩, Option.toList_some, List.flatMap_singleton,
        List.flatMap_singleton]
      exact renders_collectStatuses hc (hx.statuses y hstatuses)

/-- What is reported is exported: the inquiries of a cycle return, and of every series the
registry reads the last value in the report, or what it has read before. -/
theorem gauges_exported {cfg : Config} {clock : Clock} {m : Metrics.MetricsCollector}
    {x : GaugesReport} {rest : List Reply} (hc : m.session.client.connected = true)
    (hx : x.Fits cfg m.session.client.platform)
    (hsupply : m.session.mqi.supply = x.answers ++ rest) :
    ∃ m', collectGauges cfg clock m = (.ok (), m') ∧ m'.session.mqi.supply = rest ∧
      m'.session.client = m.session.client ∧
      ∀ f ls, m'.registry f ls =
        (lastValue (x.samples cfg m.session.client.platform clock) (f, ls)).or
          (m.registry f ls) := by
  obtain ⟨_, m', hrun, hrest, -, hstands⟩ :=
    renders_collectGauges hc hx m.registry m rest ⟨rfl, rfl⟩ hsupply
  refine ⟨m', hrun, hrest, hstands.client, fun f ls => ?_⟩
  rw [hstands.registry, Registry.put_apply]

/-! ## A report -/

/-- The answers to a command with one reply. -/
def askedOnce (message : Bytes) (hfits : message.length ≤ 64 * 1024)
    (hlast : CarriesLast message) : Asked where
  sent := plainlySent
  replies :=
    { init := [], last := { cc := .ok, message }
      readable := fun r hr => List.mem_singleton.mp hr ▸ ⟨nofun, hfits⟩
      carries_last := hlast
      not_carries_last := nofun }
  deleted := { cc := .ok }
  few := show 1 ≤ 1000 by decide

/-- The reply to an inquiry for which there is nothing. -/
def nothingFound : Bytes := (Pcf.responseHeader 42 0).encode.take 24 ++
  (Foundation.encodeInt32 2 ++ Foundation.encodeInt32 3065 ++ Foundation.encodeInt32 0)

/-- Nothing is found. -/
def reportOfNone {α : Type} (parser : Pcf.StatusParser α) (format : Pcf.StatusFormat α)
    (hkeeps : parser.keeps parser.empty = false) : Report parser format where
  asked := askedOnce nothingFound (by decide) (by decide)
  replies := []
  spares := fun hempty => by rw [hkeeps] at hempty; cases hempty
  encodes := show Pcf.withoutErrors [nothingFound] = [] by decide

/-- The queue manager is running. -/
def runningReply : Pcf.StatusReply Pcf.qmgrStatusFormat where
  record := { qmgrName := ascii "QM1", status := 2, connectionCount := 9 }
  named := trivial
  clean := by decide +kernel
  hdr := Pcf.responseHeader 161 8
  successful := rfl
  items := (Pcf.qmgrStatusFormat.fields
    { qmgrName := ascii "QM1", status := 2, connectionCount := 9 }).reverse.map
      fun f => .field f f.encode f.encodedBy_encode
  complete := by decide +kernel
  foreign := by decide +kernel
  fits := by decide +kernel

/-- A queue with seven messages and an input handle. -/
def inquiredOnce : Inquired where
  opened := { cc := .ok }
  inquired := { cc := .ok, attrs := [7, 1, 0, 5000] }
  closed := { cc := .ok }

/-- The header of a reply with one parameter. -/
def namedHeader : Pcf.PCFHeader := Pcf.responseHeader 13 1

/-- The name of the queue. -/
def namedReply : NameResponse :=
  .success namedHeader rfl [.string 0 (ascii "APP.A") (List.replicate 3 0)]

/-- What is reported in a cycle. -/
def smallReport : GaugesReport where
  selection :=
    { byPattern :=
        [{ asked := askedOnce namedReply.bytes (by decide) (by decide)
           responses := [namedReply]
           formed := by decide
           wide := by decide
           encodes := rfl }]
      all := none }
  depths := [inquiredOnce]
  handles := [inquiredOnce]
  statuses :=
    some
      { qmgr :=
          { asked := askedOnce runningReply.encode (by decide +kernel) (by decide +kernel)
            replies := [runningReply]
            spares := fun _ resp hresp _ => by
              obtain rfl := List.mem_singleton.mp hresp
              exact (Pcf.response_accepted runningReply.successful).2
            encodes := by decide +kernel }
        channels := [reportOfNone _ _ rfl]
        topics := []
        subs := []
        clusters := reportOfNone _ _ rfl
        queues := some (reportOfNone _ _ rfl)
        usage := none }

/-- A configuration with one queue. -/
def smallConfig : Config :=
  { queueManager := ascii "QM1", monitoredQueues := [ascii "APP.A"] }

/-- The collector, and the answers that make up the report. -/
def smallCollector : Metrics.MetricsCollector where
  session :=
    { mqi := { supply := smallReport.answers }
      client :=
        { config := { queueManager := ascii "QM1" }, connected := true
          platform := Platform.unix } }

theorem queues_smallReport : smallReport.queues smallConfig = [ascii "APP.A"] := by
  decide +kernel

theorem fits_smallReport : smallReport.Fits smallConfig Platform.unix where
  selection := ⟨rfl, ⟨nofun, fun h => absurd h.2 (by decide +kernel)⟩⟩
  depths := by rw [queues_smallReport]; rfl
  handles := by rw [queues_smallReport]; rfl
  asked := ⟨fun _ => rfl, fun _ => rfl⟩
  statuses y hy := by
    obtain rfl := Option.some.inj hy
    rw [queues_smallReport]
    exact ⟨rfl, rfl, rfl, ⟨fun _ => nofun, fun _ => rfl⟩, ⟨nofun, nofun⟩⟩

/-- The depth of the queue is exported, and that the queue manager runs. -/
theorem gauges_exported_smallReport :
    ∃ m', collectGauges smallConfig {} smallCollector = (.ok (), m') ∧
      m'.registry .queueDepth
        (smallConfig.metrics.series (.queueInfo Platform.unix (ascii "APP.A"))) = some 7 ∧
      m'.registry .qmgrStatus (smallConfig.metrics.series (.qmgr Platform.unix [])) =
        some 2 := by
  obtain ⟨m', hrun, -, -, hregistry⟩ := @gauges_exported smallConfig {} smallCollector
    smallReport [] rfl fits_smallReport (List.append_nil _).symm
  refine ⟨m', hrun, ?_, ?_⟩
  · rw [hregistry]
    decide +kernel
  · rw [hregistry]
    decide +kernel

end IbmmqExporter.Exporter
