/-
  Metrics/Reports.lean --- what the queue manager reports, and what is exported of it.

  The replies to an inquiry report records, each of which has values for the series of a
  measurement.

  WHAT THE FILE PROVES.  A status method of `MetricsCollector` whose inquiries are answered
  returns, and the registry behind it is the one in front of it with the values of the
  records written over it, whatever the order of the parameters in the replies.
-/
import IbmmqExporter.Metrics.Measurements
import IbmmqExporter.Mq.Answers
import IbmmqExporter.Pcf.StatusFormats

set_option autoImplicit false

namespace IbmmqExporter.Metrics

open Foundation Effect Pcf Mq

/-! ## Samples -/

/-- A value for a series. -/
abbrev Sample : Type := (Family × Labels) × ℚ

/-- The registry with samples written to it, one after the other. -/
def Registry.put (r : Registry) (samples : List Sample) : Registry :=
  samples.foldl (fun r e => r.set e.1.1 e.1.2 e.2) r

namespace Registry

variable {r : Registry}

theorem put_append (samples samples' : List Sample) :
    r.put (samples ++ samples') = (r.put samples).put samples' := List.foldl_append

/-- Of the samples of a series the last one is read. -/
theorem put_apply (samples : List Sample) (f : Family) (ls : Labels) :
    r.put samples f ls = (lastValue samples (f, ls)).or (r f ls) := by
  induction samples generalizing r with
  | nil => rfl
  | cons e samples ih =>
      have hlast : lastValue (e :: samples) (f, ls) =
          (lastValue samples (f, ls)).or (List.lookup (f, ls) [e]) :=
        lastValue_append [e] samples (f, ls)
      rw [hlast, Option.or_assoc]
      refine ih.trans (congrArg _ ?_)
      dsimp only
      rw [set_apply, List.lookup_cons, List.lookup_nil]
      by_cases hat : f = e.1.1 ∧ ls = e.1.2
      · rw [if_pos hat, beq_iff_eq.mpr (Prod.ext hat.1 hat.2)]
        rfl
      · rw [if_neg hat, beq_false_of_ne fun heq => hat (Prod.mk.inj heq)]
        rfl

theorem foldl_put {α : Type} (samples : α → List Sample) (l : List α) :
    l.foldl (fun r a => r.put (samples a)) r = r.put (l.flatMap samples) := by
  induction l generalizing r with
  | nil => rfl
  | cons a l ih => rw [List.foldl_cons, ih, List.flatMap_cons, put_append]

end Registry

/-- Values for the series of a measurement. -/
def Config.samples (cfg : Config) (x : Measurement) (values : List (Family × ℚ)) : List Sample :=
  values.map fun e => ((e.1, cfg.series x), e.2)

/-! ## Values -/

/-- What is exported of the status of a channel. -/
def channelValues (ch : ChannelStatusDetails) : List (Family × ℚ) :=
  [(.channelStatus, ch.status.toInt), (.channelStatusMsgs, ch.msgs.toInt),
   (.channelBytesSent, toDouble ch.bytesSent.toInt),
   (.channelBytesReceived, toDouble ch.bytesReceived.toInt),
   (.channelBuffersSent, ch.buffersSent.toInt),
   (.channelBuffersReceived, ch.buffersReceived.toInt),
   (.channelSubstate, ch.substate.toInt), (.channelInstanceType, ch.instanceType.toInt),
   (.channelNettimeShort, ch.nettimeShort.toInt), (.channelNettimeLong, ch.nettimeLong.toInt),
   (.channelXmitqTimeShort, ch.xmitqTimeShort.toInt),
   (.channelXmitqTimeLong, ch.xmitqTimeLong.toInt),
   (.channelBatchSizeShort, ch.batchSizeShort.toInt),
   (.channelBatchSizeLong, ch.batchSizeLong.toInt),
   (.channelMaxInstc, ch.maxInstances.toInt), (.channelCurInstc, ch.curSharingConvs.toInt),
   (.channelStatusSquash, squashStatus ch.status)]

/-- What is exported of the status of a topic. -/
def topicValues (t : TopicStatusDetails) : List (Family × ℚ) :=
  [(.topicPubCount, t.pubCount.toInt), (.topicSubCount, t.subCount.toInt)]

/-- What is exported of the status of a subscription. -/
def subValues (s : SubStatusDetails) : List (Family × ℚ) :=
  [(.subDurable, s.durable.toInt), (.subType, s.subType.toInt),
   (.subMessageCount, s.messageCount.toInt)]

/-- The seconds since the queue manager was started, if the clock can tell. -/
def uptime (clock : Clock) (status : QMgrStatusDetails) : Option Int :=
  if status.startDate = [] ∨ status.startTime = [] then none
  else
    (clock.epochOf (status.startDate ++ ascii " " ++ status.startTime)).bind fun start =>
      if 0 ≤ start ∧ 0 < clock.statusTime - start then some (clock.statusTime - start) else none

/-- What is exported of this time. -/
def uptimeValues (clock : Clock) (status : QMgrStatusDetails) : List (Family × ℚ) :=
  (uptime clock status).toList.map fun t : Int => (.qmgrUptime, toDouble t)

/-- What is exported of the queue manager's status. -/
def qmgrValues (clock : Clock) (status : QMgrStatusDetails) : List (Family × ℚ) :=
  (.qmgrStatus, status.status.toInt) :: (.qmgrConnectionCount, status.connectionCount.toInt) ::
    (.qmgrChinitStatus, status.chinitStatus.toInt) ::
    (.qmgrCmdServerStatus, status.cmdServerStatus.toInt) :: uptimeValues clock status

/-- What is exported of a queue manager of a cluster. -/
def clusterValues (cl : ClusterQMgrDetails) : List (Family × ℚ) :=
  [(.clusterQmgrStatus, cl.status.toInt), (.clusterQmgrSuspend, cl.suspend.toInt)]

/-- What is exported of the status of a queue. -/
def queueOnlineValues (qs : QueueOnlineStatus) : List (Family × ℚ) :=
  [(.queueOldestMsgAge, qs.oldestMsgAge.toInt),
   (.queueUncommittedMsgs, qs.uncommittedMsgs.toInt), (.queueQtimeShort, qs.qtimeShort.toInt),
   (.queueQtimeLong, qs.qtimeLong.toInt), (.queueQfileCurrentSize, qs.curQFileSize.toInt),
   (.queueQfileMaxSize, qs.curMaxFileSize.toInt)]

/-- What is exported of a buffer pool. -/
def usageBpValues (bp : UsageBPDetails) : List (Family × ℚ) :=
  [(.usageBpFree, bp.freeBuffers.toInt), (.usageBpTotal, bp.totalBuffers.toInt)]

/-- What is exported of a page set. -/
def usagePsValues (ps : UsagePSDetails) : List (Family × ℚ) :=
  [(.usagePsTotal, ps.totalPages.toInt), (.usagePsUnused, ps.unusedPages.toInt)]

section Values

variable {cfg : Config} {r : Registry} (plat : Int32)

theorem recordUptime_eq (clock : Clock) (status : QMgrStatusDetails) (r : Registry) :
    recordUptime clock (qmgrLabels cfg (Platform.platformName plat) status.description) status r =
      r.put (cfg.samples (.qmgr plat status.description) (uptimeValues clock status)) := by
  unfold recordUptime uptimeValues uptime
  split
  · rfl
  cases clock.epochOf (status.startDate ++ ascii " " ++ status.startTime) with
  | none => rfl
  | some start =>
      dsimp only [Option.bind_some]
      split
      · rfl
      · rfl

theorem recordQmgrStatus_eq (clock : Clock) (status : QMgrStatusDetails) :
    recordQmgrStatus cfg (Platform.platformName plat) clock status r =
      r.put (cfg.samples (.qmgr plat status.description) (qmgrValues clock status)) :=
  recordUptime_eq plat clock status _

end Values

/-! ## Programs -/

/-- The answers to come. -/
def MetricsCollector.supply (m : MetricsCollector) : List Reply := m.session.supply

/-- The collector has this client and this registry. -/
structure Stands (c : MQClient) (r : Registry) (m : MetricsCollector) : Prop where
  client : m.session.client = c
  registry : m.registry = r

/-- Given these answers the program returns `a`, and has written the samples. -/
def Renders {α : Type} (c : MQClient) (p : Collect α) (answers : List Reply) (a : α)
    (samples : List Sample) : Prop :=
  ∀ r, Uses MetricsCollector.supply (Stands c r) p answers fun b m =>
    b = a ∧ Stands c (r.put samples) m

section Programs

variable {α β : Type} {c : MQClient} {answers answers' : List Reply}
  {samples samples' : List Sample} {a : α} {b : β}

theorem renders_pure (a : α) : Renders c (pure a) [] a [] :=
  fun _ => uses_pure fun _ hm => ⟨rfl, hm⟩

theorem Renders.then {p : Collect α} {k : α → Collect β} (hp : Renders c p answers a samples)
    (hk : Renders c (k a) answers' b samples') :
    Renders c (p >>= k) (answers ++ answers') b (samples ++ samples') := by
  intro r
  rw [Registry.put_append]
  exact (hp r).then (hk _)

/-- What is written behind all the answers. -/
theorem Renders.finally {p : Collect α} {k : α → Collect β} (hp : Renders c p answers a [])
    (hk : Renders c (k a) [] b samples) : Renders c (p >>= k) answers b samples :=
  fun r => (hp r).finally (hk r)

theorem Renders.map {p : Collect α} (hp : Renders c p answers a samples) (f : α → β) :
    Renders c (f <$> p) answers (f a) samples :=
  fun r => Uses.map ((hp r).mono (fun _ hm => hm) fun _ _ hb => ⟨congrArg f hb.1, hb.2⟩)

/-- A part that asks and writes nothing. -/
theorem renders_reads {f : MetricsCollector → α} {k : α → Collect β}
    (hf : ∀ r m, Stands c r m → f m = a) (hk : Renders c (k a) answers b samples) :
    Renders c (Effect.gets f >>= k) answers b samples :=
  fun r => uses_gets_then (hf r) (hk r)

theorem renders_platform {k : Bytes → Collect β}
    (hk : Renders c (k (Platform.platformName c.platform)) answers b samples) :
    Renders c (platform >>= k) answers b samples :=
  renders_reads (fun _ _ hm => congrArg MQClient.platformString hm.client) hk

theorem renders_connected {k : Bool → Collect β}
    (hk : Renders c (k c.connected) answers b samples) :
    Renders c (clientConnected >>= k) answers b samples :=
  renders_reads (fun _ _ hm => congrArg MQClient.connected hm.client) hk

theorem renders_session {method : Method α} (h : Returns c method answers a) :
    Renders c (session method) answers a [] := by
  intro r
  show Uses (fun m : MetricsCollector => m.session.supply) _ _ _ _
  refine Uses.zoom (fun m hm => ?_) fun _ _ => rfl
  refine h.mono (fun s hs => hs ▸ hm.client) fun b s hb => ?_
  exact ⟨hb.1, hb.2, hm.registry⟩

theorem renders_record {write : Registry → Registry} (h : ∀ r, write r = r.put samples) :
    Renders c (record write) [] () samples := by
  refine fun r => uses_modify (fun _ => rfl) fun m hm => ⟨rfl, hm.client, ?_⟩
  rw [← hm.registry]
  exact h m.registry

theorem Renders.caught {p : Collect α} (hp : Renders c p answers a samples)
    {handler : StdException → Collect α} : Renders c (tryCatch p handler) answers a samples :=
  fun r => (hp r).tryCatch

/-- What is written for each element of a list. -/
theorem renders_foldl {ι : Type} {write : Registry → ι → Registry} {written : ι → List Sample}
    (h : ∀ r i, write r i = r.put (written i)) (l : List ι) :
    Renders c (record fun r => l.foldl write r) [] () (l.flatMap written) := by
  refine renders_record fun r => ?_
  rw [← Registry.foldl_put]
  exact congrArg (fun write => l.foldl write r) (funext fun r => funext fun i => h r i)

end Programs

/-! ## Reports -/

/-- The answers to an inquiry, and the records that the replies encode.  There may be
error replies among them, if the parser keeps no record without a name. -/
structure Report {α : Type} (parser : StatusParser α) (format : StatusFormat α) where
  asked : Asked
  replies : List (StatusReply format)
  spares : parser.Spares asked.replies.messages
  encodes : withoutErrors asked.replies.messages = replies.map StatusReply.encode

section Reports

variable {α β : Type} {parser : StatusParser α} {format : StatusFormat α} {c : MQClient}

/-- The answers to the inquiry. -/
def Report.answers (x : Report parser format) : List Reply := x.asked.answers

/-- What is reported. -/
def Report.records (x : Report parser format) : List α := x.replies.map StatusReply.record

/-- An inquiry returns what is reported. -/
theorem Report.returns (hc : c.connected = true) (h : Decodes parser format)
    (x : Report parser format) (cmd : Bytes) :
    Returns c (inquireStatus cmd parser.parse) x.answers x.records := by
  refine (returns_sendPcfCommand hc x.asked cmd).finally ?_
  exact uses_lift (h.parse_among x.spares x.encodes) fun _ hs => ⟨rfl, hs⟩

/-- An inquiry whose records are written. -/
theorem Report.renders (hc : c.connected = true) (h : Decodes parser format)
    (x : Report parser format) (cmd : Bytes) {write : Registry → α → Registry}
    {written : α → List Sample} (hwrite : ∀ r a, write r a = r.put (written a)) :
    Renders c (session (inquireStatus cmd parser.parse) >>= fun statuses =>
      record fun r => statuses.foldl write r) x.answers () (x.records.flatMap written) :=
  (renders_session (x.returns hc h cmd)).finally (renders_foldl hwrite x.records)

/-- The loop over patterns, with a report for each of them. -/
theorem renders_collectPatterns (hc : c.connected = true) (h : Decodes parser format)
    {patterns : List Bytes} {reports : List (Report parser format)}
    (hlength : patterns.length = reports.length) {cmd : Bytes → Bytes}
    {write : Registry → α → Registry} {written : α → List Sample}
    (hwrite : ∀ r a, write r a = r.put (written a)) :
    Renders c (collectPatterns patterns (fun pattern => inquireStatus (cmd pattern) parser.parse)
      write) (reports.flatMap Report.answers) ()
      ((reports.flatMap Report.records).flatMap written) := by
  induction reports generalizing patterns with
  | nil =>
      obtain rfl := List.eq_nil_of_length_eq_zero hlength
      exact renders_pure ()
  | cons x reports ih =>
      obtain ⟨pattern, patterns, rfl⟩ := List.exists_cons_of_length_eq_add_one hlength
      rw [List.flatMap_cons, List.flatMap_cons, List.flatMap_append]
      refine Renders.then (x.renders hc h (cmd pattern) hwrite) (ih ?_)
      exact Nat.succ.inj hlength

end Reports

/-! ## Methods -/

section Methods

variable {cfg : Config} {c : MQClient} (hc : c.connected = true)

/-- What is exported of the queue manager's status, if it is reported. -/
def qmgrSamples (cfg : Config) (plat : Int32) (clock : Clock) :
    Option QMgrStatusDetails → List Sample
  | none => cfg.samples (.qmgr plat []) [(.qmgrStatus, 0)]
  | some status => cfg.samples (.qmgr plat status.description) (qmgrValues clock status)

include hc

theorem renders_collectQmgrStatus (clock : Clock)
    (x : Report qmgrStatusParser qmgrStatusFormat) :
    Renders c (collectQmgrStatus cfg clock) x.answers ()
      (qmgrSamples cfg c.platform clock x.records.head?) := by
  have hhead : Returns c getQmgrStatus x.answers x.records.head? :=
    Uses.map ((x.returns hc qmgrStatus_decodes _).mono (fun _ hs => hs)
      fun _ _ hb => ⟨congrArg List.head? hb.1, hb.2⟩)
  refine (renders_session hhead).finally (renders_platform ?_)
  cases x.records.head? with
  | none => exact renders_record fun _ => rfl
  | some status => exact renders_record fun _ => recordQmgrStatus_eq c.platform clock status

/-- The patterns of the channels that are asked for. -/
def channelPatterns (monitoredChannels : List Bytes) : List Bytes :=
  if monitoredChannels = [] then [ascii "*"] else monitoredChannels

theorem renders_collectChannelStatus {monitoredChannels : List Bytes}
    {reports : List (Report channelStatusParser channelStatusFormat)}
    (hlength : (channelPatterns monitoredChannels).length = reports.length) :
    Renders c (collectChannelStatus cfg monitoredChannels) (reports.flatMap Report.answers) ()
      ((reports.flatMap Report.records).flatMap fun ch =>
        cfg.samples (.channel c.platform ch) (channelValues ch)) :=
  renders_platform (renders_collectPatterns hc channelStatus_decodes hlength fun _ _ => rfl)

theorem renders_collectTopicStatus {monitoredTopics : List Bytes}
    {reports : List (Report topicStatusParser topicStatusFormat)}
    (hlength : monitoredTopics.length = reports.length) :
    Renders c (collectTopicStatus cfg monitoredTopics) (reports.flatMap Report.answers) ()
      ((reports.flatMap Report.records).flatMap fun t =>
        cfg.samples (.topic c.platform t) (topicValues t)) := by
  unfold collectTopicStatus
  split
  · next hnone =>
      rw [hnone] at hlength
      obtain rfl := List.eq_nil_of_length_eq_zero hlength.symm
      exact renders_pure ()
  · exact renders_platform (renders_collectPatterns hc topicStatus_decodes hlength fun _ _ => rfl)

theorem renders_collectSubStatus {monitoredSubscriptions : List Bytes}
    {reports : List (Report subStatusParser subStatusFormat)}
    (hlength : monitoredSubscriptions.length = reports.length) :
    Renders c (collectSubStatus cfg monitoredSubscriptions) (reports.flatMap Report.answers) ()
      ((reports.flatMap Report.records).flatMap fun s =>
        cfg.samples (.sub c.platform s) (subValues s)) := by
  unfold collectSubStatus
  split
  · next hnone =>
      rw [hnone] at hlength
      obtain rfl := List.eq_nil_of_length_eq_zero hlength.symm
      exact renders_pure ()
  · exact renders_platform (renders_collectPatterns hc subStatus_decodes hlength fun _ _ => rfl)

theorem renders_collectClusterStatus (x : Report clusterQmgrParser clusterQmgrFormat) :
    Renders c (collectClusterStatus cfg) x.answers ()
      (x.records.flatMap fun cl => cfg.samples (.cluster c.platform cl) (clusterValues cl)) := by
  refine (renders_session (x.returns hc clusterQmgr_decodes _)).finally (renders_platform ?_)
  refine renders_foldl (fun _ _ => ?_) x.records
  rfl

/-- Only what is reported of the queues that are monitored is exported. -/
theorem renders_collectQueueOnlineStatus {cachedQueues : List Bytes}
    {report : Option (Report queueOnlineStatusParser queueOnlineStatusFormat)}
    (hreport : report.isSome = true ↔ cachedQueues ≠ []) :
    Renders c (collectQueueOnlineStatus cfg cachedQueues) (report.toList.flatMap Report.answers) ()
      (((report.toList.flatMap Report.records).filter fun qs =>
          cachedQueues.contains qs.queueName).flatMap fun qs =>
        cfg.samples (.queueOnline c.platform qs.queueName) (queueOnlineValues qs)) := by
  refine renders_connected ?_
  rw [if_neg (by rw [hc]; nofun)]
  cases report with
  | none =>
      rw [if_pos (not_not.mp (mt hreport.mpr nofun))]
      exact renders_pure ()
  | some x =>
      rw [if_neg (hreport.mp rfl), Option.toList_some, List.flatMap_singleton,
        List.flatMap_singleton]
      refine renders_platform ?_
      refine (renders_session (x.returns hc queueOnlineStatus_decodes _)).finally ?_
      refine renders_foldl (fun _ _ => ?_) _
      rfl

theorem renders_collectUsageStatus (bps : Report bufferPoolParser bufferPoolFormat)
    (pss : Report usagePsParser usagePsFormat) :
    Renders c (collectUsageStatus cfg) (bps.answers ++ pss.answers) ()
      (((bps.records.map BufferPool.details).flatMap fun bp =>
          cfg.samples (.usageBp c.platform bp) (usageBpValues bp)) ++
        pss.records.flatMap fun ps => cfg.samples (.usagePs c.platform ps) (usagePsValues ps)) := by
  have hbps : Returns c getUsageBpStatus bps.answers (bps.records.map BufferPool.details) := by
    refine (returns_sendPcfCommand hc bps.asked _).finally (uses_lift ?_ fun _ hs => ⟨rfl, hs⟩)
    rw [parse_usageBp, bufferPool_decodes.parse_among bps.spares bps.encodes]
    rfl
  refine renders_platform ?_
  show Renders c _ (bps.answers ++ ([] ++ pss.answers)) () ([] ++ (_ ++ _))
  refine Renders.then (renders_session hbps) (Renders.then (renders_foldl ?_ _) ?_)
  · exact fun _ _ => rfl
  · exact pss.renders hc usagePs_decodes _ fun _ _ => rfl

end Methods

end IbmmqExporter.Metrics
