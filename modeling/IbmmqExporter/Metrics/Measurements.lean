/-
  Metrics/Measurements.lean --- what is measured, and the series it is written to.

  A measurement is what the collector has been told of one object.  It is written to one
  or several families, in each of them to the series with the same labels: those that
  identify the object, with the metadata labels written over them.

  WHAT THE FILE PROVES.  Whatever `MetricsCollector` writes, it writes to the series of a
  measurement; and apart from the handles of queues, the count of which is asked for, it
  writes to no series of such a count.
-/
import IbmmqExporter.Foundation.Course
import IbmmqExporter.Foundation.Overlay
import IbmmqExporter.Metrics.Accounting
import IbmmqExporter.Metrics.Publications
import IbmmqExporter.Metrics.Status

set_option autoImplicit false

namespace IbmmqExporter.Metrics

open Foundation Pcf Mq
open Monitor (PublicationMetric)

/-! ## Labels -/

def collectorVersionLabel : LabelName := label "collector_version" validLabelName_collector_version
def applicationNameLabel : LabelName := label "application_name" validLabelName_application_name
def applicationTagLabel : LabelName := label "application_tag" validLabelName_application_tag
def userIdentifierLabel : LabelName := label "user_identifier" validLabelName_user_identifier
def connectionNameLabel : LabelName := label "connection_name" validLabelName_connection_name
def channelNameLabel : LabelName := label "channel_name" validLabelName_channel_name
def sourceIpLabel : LabelName := label "source_ip" validLabelName_source_ip
def roleLabel : LabelName := label "role" validLabelName_role
def openModeLabel : LabelName := label "open_mode" validLabelName_open_mode
def handleStateLabel : LabelName := label "handle_state" validLabelName_handle_state
def processIdLabel : LabelName := label "process_id" validLabelName_process_id
def useridLabel : LabelName := label "userid" validLabelName_userid
def pidLabel : LabelName := label "pid" validLabelName_pid
def appltagLabel : LabelName := label "appltag" validLabelName_appltag
def connameLabel : LabelName := label "conname" validLabelName_conname

/-! ## Measurements -/

/-- What a label map is built from; the queue manager is the one that the message
reports. -/
inductive Measurement where
  | collection (plat : Int32)
  | queueStatistics (reported : Bytes) (plat : Int32) (queueName : Bytes)
  | queueProcess (reported queueName : Bytes) (proc : ProcInfo)
  | queueHandleInfo (reported queueName : Bytes) (proc : ProcInfo)
  | queueProcessDetail (reported queueName : Bytes) (proc : ProcInfo)
  | queueHandles (reported queueName : Bytes) (proc : ProcInfo)
  | channelStatistics (reported : Bytes) (cs : ChannelStatistics)
  | mqi (reported : Bytes) (mqi : MQIStatistics)
  | operations (reported : Bytes) (info : ConnectionInfo)
  | queueOperation (reported : Bytes) (qa : QueueAppOperation)
  | queueInfo (plat : Int32) (queueName : Bytes)
  | handleCounts (queueName : Bytes)
  | queueOnline (plat : Int32) (queueName : Bytes)
  | channel (plat : Int32) (ch : ChannelStatusDetails)
  | topic (plat : Int32) (t : TopicStatusDetails)
  | sub (plat : Int32) (s : SubStatusDetails)
  | qmgr (plat : Int32) (description : Bytes)
  | cluster (plat : Int32) (cl : ClusterQMgrDetails)
  | usageBp (plat : Int32) (bp : UsageBPDetails)
  | usagePs (plat : Int32) (ps : UsagePSDetails)
  | timestamp
  | publication (plat : Int32) (pm : PublicationMetric)

/-- What the label maps take from the configuration and the build. -/
structure Origin where
  queueManager : Bytes
  channel : Bytes
  version : Bytes

def Config.origin (cfg : Config) : Origin := ⟨cfg.queueManager, cfg.channel, cfg.version⟩

/-- The queue manager of a message. -/
def Origin.qmgr (o : Origin) (reported : Bytes) : Bytes :=
  if reported = [] then o.queueManager else reported

namespace Measurement

/-- The labels that identify what has been measured. -/
def entries (o : Origin) : Measurement → List (LabelName × Bytes)
  | collection plat =>
      [(queueManagerLabel, o.queueManager), (channelLabel, o.channel),
       (platformLabel, Platform.platformName plat), (collectorVersionLabel, o.version)]
  | queueStatistics reported plat queueName =>
      [(queueManagerLabel, o.qmgr reported), (queueNameLabel, queueName),
       (platformLabel, Platform.platformName plat)]
  | queueProcess reported queueName proc =>
      [(queueManagerLabel, o.qmgr reported), (queueNameLabel, queueName),
       (applicationNameLabel, proc.applicationName),
       (sourceIpLabel, proc.connectionName), (roleLabel, roleText proc.role)]
  | queueHandleInfo reported queueName proc =>
      [(queueManagerLabel, o.qmgr reported), (queueNameLabel, queueName),
       (applicationNameLabel, proc.applicationName),
       (userIdentifierLabel, proc.userIdentifier),
       (openModeLabel, openMode proc.role), (handleStateLabel, ascii "Open")]
  | queueProcessDetail reported queueName proc =>
      [(queueManagerLabel, o.qmgr reported), (queueNameLabel, queueName),
       (applicationNameLabel, proc.applicationName),
       (processIdLabel, decimal proc.processId),
       (userIdentifierLabel, proc.userIdentifier), (roleLabel, roleText proc.role)]
  | queueHandles reported queueName proc =>
      [(queueManagerLabel, o.qmgr reported), (queueNameLabel, queueName),
       (useridLabel, proc.userIdentifier), (pidLabel, decimal proc.processId),
       (channelLabel, proc.channelName), (appltagLabel, proc.applicationTag),
       (connameLabel, proc.connectionName)]
  | channelStatistics reported cs =>
      [(queueManagerLabel, o.qmgr reported), (channelNameLabel, cs.channelName),
       (connectionNameLabel, cs.connectionName)]
  | mqi reported stats =>
      [(queueManagerLabel, o.qmgr reported),
       (applicationNameLabel, stats.applicationName),
       (applicationTagLabel, stats.applicationTag),
       (userIdentifierLabel, stats.userIdentifier),
       (connectionNameLabel, stats.connectionName), (channelNameLabel, stats.channelName)]
  | operations reported info =>
      [(queueManagerLabel, o.qmgr reported),
       (applicationNameLabel, info.applicationName),
       (applicationTagLabel, info.applicationTag),
       (userIdentifierLabel, info.userIdentifier),
       (connectionNameLabel, info.connectionName), (channelNameLabel, info.channelName)]
  | queueOperation reported qa =>
      [(queueManagerLabel, o.qmgr reported), (queueNameLabel, qa.queueName),
       (applicationNameLabel, qa.applicationName), (sourceIpLabel, qa.connectionName),
       (userIdentifierLabel, qa.userIdentifier)]
  | queueInfo plat queueName =>
      [(queueManagerLabel, o.queueManager), (queueNameLabel, queueName),
       (platformLabel, Platform.platformName plat)]
  | handleCounts queueName =>
      [(queueManagerLabel, o.queueManager), (queueNameLabel, queueName),
       (useridLabel, []), (pidLabel, []),
       (channelLabel, []), (appltagLabel, []),
       (connameLabel, [])]
  | queueOnline plat queueName =>
      [(queueManagerLabel, o.queueManager), (queueNameLabel, queueName),
       (platformLabel, Platform.platformName plat)]
  | channel plat ch =>
      [(qmgrLabel, o.queueManager), (platformLabel, Platform.platformName plat),
       (channelLabel, ch.channelName), (typeLabel, decimal ch.channelType),
       (rqmnameLabel, ch.remoteQmgr), (connnameLabel, ch.connectionName),
       (jobnameLabel, ch.jobName), (sslciphLabel, ch.sslCipher)]
  | topic plat t =>
      [(qmgrLabel, o.queueManager), (platformLabel, Platform.platformName plat),
       (topicLabel, if t.topicString = [] then t.topicName else t.topicString),
       (typeLabel, decimal t.topicType)]
  | sub plat s =>
      [(qmgrLabel, o.queueManager), (platformLabel, Platform.platformName plat),
       (subscriptionLabel, s.subName), (subidLabel, s.subId), (topicLabel, s.topicString),
       (typeLabel, decimal s.subType)]
  | qmgr plat description =>
      [(qmgrLabel, o.queueManager), (platformLabel, Platform.platformName plat),
       (descriptionLabel, description)]
  | cluster plat cl =>
      [(qmgrLabel, o.queueManager), (platformLabel, Platform.platformName plat),
       (clusterLabel, cl.clusterName), (qmtypeLabel, decimal cl.qmType)]
  | usageBp plat bp =>
      [(qmgrLabel, o.queueManager), (platformLabel, Platform.platformName plat),
       (bufferpoolLabel, decimal bp.bufferPool), (locationLabel, decimal bp.location),
       (pageclassLabel, decimal bp.pageClass)]
  | usagePs plat ps =>
      [(qmgrLabel, o.queueManager), (platformLabel, Platform.platformName plat),
       (pagesetLabel, decimal ps.pagesetId), (bufferpoolLabel, decimal ps.bufferPool)]
  | timestamp => [(queueManagerLabel, o.queueManager)]
  | publication plat pm =>
      [(qmgrLabel, o.queueManager), (platformLabel, Platform.platformName plat),
       (scopeLabel (scopeOf pm), scopeValue pm)]

/-- The families that the measurement is written to. -/
def Writes : Measurement → Family → Prop
  | collection _, f => f = .collectionInfo
  | queueStatistics .., f =>
      f ∈ [.queueDepth, .queueHighDepth, .queueEnqueue, .queueDequeue, .queueReaders,
        .queueWriters]
  | queueProcess .., f => f = .queueProcess
  | queueHandleInfo .., f => f = .queueHandleInfo
  | queueProcessDetail .., f => f = .queueProcessDetail
  | queueHandles _ _ proc, f => f = handlesFamily proc.role
  | channelStatistics .., f => f ∈ [.channelMessages, .channelBytes, .channelBatches]
  | mqi .., f => (∃ c, f = .mqiCounter c) ∨ ∃ t, f = .mqiTotal t
  | operations .., f => ∃ c, f = .mqiCounter c
  | queueOperation .., f =>
      f ∈ [.queueAppPuts, .queueAppGets, .queueAppMsgsReceived, .queueAppMsgsSent]
  | queueInfo .., f => f ∈ [.queueDepth, .queueMaxDepth]
  | handleCounts _, f => f ∈ [.queueInputHandles, .queueOutputHandles]
  | queueOnline .., f =>
      f ∈ [.queueOldestMsgAge, .queueUncommittedMsgs, .queueQtimeShort, .queueQtimeLong,
        .queueQfileCurrentSize, .queueQfileMaxSize]
  | channel .., f =>
      f ∈ [.channelStatus, .channelStatusMsgs, .channelBytesSent, .channelBytesReceived,
        .channelBuffersSent, .channelBuffersReceived, .channelSubstate, .channelInstanceType,
        .channelNettimeShort, .channelNettimeLong, .channelXmitqTimeShort,
        .channelXmitqTimeLong, .channelBatchSizeShort, .channelBatchSizeLong,
        .channelMaxInstc, .channelCurInstc, .channelStatusSquash]
  | topic .., f => f ∈ [.topicPubCount, .topicSubCount]
  | sub .., f => f ∈ [.subDurable, .subType, .subMessageCount]
  | qmgr .., f =>
      f ∈ [.qmgrStatus, .qmgrConnectionCount, .qmgrChinitStatus, .qmgrCmdServerStatus,
        .qmgrUptime]
  | cluster .., f => f ∈ [.clusterQmgrStatus, .clusterQmgrSuspend]
  | usageBp .., f => f ∈ [.usageBpFree, .usageBpTotal]
  | usagePs .., f => f ∈ [.usagePsTotal, .usagePsUnused]
  | timestamp, f => f = .lastCollectionTime
  | publication _ pm, f => ∃ name, f = publicationFamily (scopeOf pm) name

/-- The measurement is a count of handles that has been asked for. -/
def isCount : Measurement → Bool
  | handleCounts _ => true
  | _ => false

end Measurement

/-- The labels of the series of a measurement. -/
def Config.series (cfg : Config) (x : Measurement) : Labels :=
  cfg.addMetaLabels (labels (x.entries cfg.origin))

/-- The series is one of a measurement of some kind. -/
def Written (cfg : Config) (K : Measurement → Prop) (f : Family) (ls : Labels) : Prop :=
  ∃ x, K x ∧ x.Writes f ∧ ls = cfg.series x

/-- The series is one of a measurement that is no count of handles. -/
abbrev Reported (cfg : Config) : Family → Labels → Prop := Written cfg (·.isCount = false)

/-- The series is one of a count of handles. -/
abbrev Counted (cfg : Config) : Family → Labels → Prop := Written cfg (·.isCount = true)

/-! ## What changes in a registry -/

/-- The values that change are those of some series. -/
def Moves (P : Family → Labels → Prop) (r r' : Registry) : Prop :=
  ∀ f ls, r' f ls ≠ r f ls → P f ls

section Moves

variable {P : Family → Labels → Prop} {r r' r'' : Registry} {f : Family} {ls : Labels}

theorem Moves.refl (r : Registry) : Moves P r r := fun _ _ h => absurd rfl h

theorem Moves.trans (h : Moves P r r') (h' : Moves P r' r'') : Moves P r r'' := by
  intro f ls hne
  by_cases heq : r' f ls = r f ls
  · exact h' f ls (heq.symm ▸ hne)
  · exact h f ls heq

theorem Moves.set (h : Moves P r r') (hf : P f ls) (v : ℚ) : Moves P r (r'.set f ls v) := by
  intro f' ls' hne
  by_cases hat : f' = f ∧ ls' = ls
  · obtain ⟨rfl, rfl⟩ := hat
    exact hf
  · rw [Registry.set_apply, if_neg hat] at hne
    exact h f' ls' hne

theorem Moves.increment (h : Moves P r r') (hf : P f ls) (v : ℚ) :
    Moves P r (r'.increment f ls v) := h.set hf _

theorem Moves.mono {Q : Family → Labels → Prop} (h : Moves P r r') (hPQ : ∀ f ls, P f ls → Q f ls) :
    Moves Q r r' := fun f ls hne => hPQ f ls (h f ls hne)

theorem moves_foldl {α : Type} {write : Registry → α → Registry} {l : List α}
    (h : ∀ r, ∀ a ∈ l, Moves P r (write r a)) (r : Registry) : Moves P r (l.foldl write r) := by
  induction l generalizing r with
  | nil => exact Moves.refl r
  | cons a l ih =>
      exact (h r a List.mem_cons_self).trans
        (ih (fun r b hb => h r b (List.mem_cons_of_mem a hb)) _)

theorem moves_elim {α : Type} {write : α → Registry} (o : Option α)
    (h : ∀ a, Moves P r (write a)) : Moves P r (o.elim r write) := by
  cases o with
  | none => exact Moves.refl r
  | some a => exact h a

/-- A series that is none of those keeps its value. -/
theorem Moves.eq (h : Moves P r r') (hf : ¬ P f ls) : r' f ls = r f ls :=
  not_not.mp fun hne => hf (h f ls hne)

/-- The same, of a state that has a registry. -/
def Moving {σ : Type} (P : Family → Labels → Prop) (registry : σ → Registry) (s s' : σ) : Prop :=
  Moves P (registry s) (registry s')

variable {σ : Type} {registry : σ → Registry}

instance : Std.Refl (Moving P registry) := ⟨fun _ => Moves.refl _⟩

instance : IsTrans σ (Moving P registry) := ⟨fun _ _ _ => Moves.trans⟩

end Moves

/-! ## What is written -/

section Writing

variable {cfg : Config} {r : Registry} (plat : Int32)

/-- A measurement that is no count is reported in each of its families. -/
theorem reported_series (x : Measurement) (hx : x.isCount = false) :
    ∀ f, x.Writes f → Reported cfg f (cfg.series x) := fun _ hf => ⟨x, hx, hf, rfl⟩

theorem moves_recordProc (reporter queueName : Bytes) (proc : ProcInfo) :
    Moves (Reported cfg) r (recordProc cfg (cfg.origin.qmgr reporter) queueName r proc) := by
  refine Moves.set (Moves.set (Moves.set (Moves.set (Moves.refl r) ?_ _) ?_ _) ?_ _) ?_ _
  · exact reported_series (.queueProcess reporter queueName proc) rfl _ rfl
  · exact reported_series (.queueHandleInfo reporter queueName proc) rfl _ rfl
  · exact reported_series (.queueProcessDetail reporter queueName proc) rfl _ rfl
  · exact reported_series (.queueHandles reporter queueName proc) rfl _ rfl

theorem moves_recordQueueStats (reporter : Bytes) (qs : QueueStatistics) :
    Moves (Reported cfg) r
      (recordQueueStats cfg (cfg.origin.qmgr reporter) (Platform.platformName plat) qs r) := by
  have hw := @reported_series cfg (.queueStatistics reporter plat qs.queueName) rfl
  dsimp only [recordQueueStats]
  refine Moves.trans ?_ (moves_foldl (fun r proc _ => moves_recordProc _ _ proc) _)
  iterate 6 refine Moves.set ?_ (hw _ (by simp [Measurement.Writes])) _
  exact Moves.refl r

theorem moves_recordChannelStats (reporter : Bytes) (cs : ChannelStatistics) :
    Moves (Reported cfg) r (recordChannelStats cfg (cfg.origin.qmgr reporter) cs r) := by
  have hw := @reported_series cfg (.channelStatistics reporter cs) rfl
  dsimp only [recordChannelStats]
  iterate 3 refine Moves.set ?_ (hw _ (by simp [Measurement.Writes])) _
  exact Moves.refl r

theorem moves_updateMqiGauges (reporter : Bytes) (stats : MQIStatistics) :
    Moves (Reported cfg) r (updateMqiGauges cfg stats (cfg.origin.qmgr reporter) r) := by
  have hw := @reported_series cfg (.mqi reporter stats) rfl
  refine (moves_foldl (fun r c _ => ?_) r).trans (moves_foldl (fun r t _ => ?_) _)
  · exact (Moves.refl r).set (hw _ (.inl ⟨c, rfl⟩)) _
  · exact (Moves.refl r).set (hw _ (.inr ⟨t, rfl⟩)) _

theorem moves_recordStatistics (stats : StatisticsData) :
    Moves (Reported cfg) r (recordStatistics cfg (Platform.platformName plat) stats r) := by
  rw [recordStatistics_eq]
  refine Moves.trans (Moves.trans (moves_elim _ fun qs => ?_) (moves_elim _ fun cs => ?_))
    (moves_elim _ fun mqi => ?_)
  · exact moves_recordQueueStats plat stats.queueManager qs
  · exact moves_recordChannelStats stats.queueManager cs
  · exact moves_updateMqiGauges stats.queueManager mqi

theorem moves_recordOperations (reporter : Bytes) (info : ConnectionInfo)
    (ops : OperationCounts) :
    Moves (Reported cfg) r (recordOperations cfg (cfg.origin.qmgr reporter) info ops r) := by
  have hw := @reported_series cfg (.operations reporter info) rfl
  exact moves_foldl (fun r e _ => (Moves.refl r).increment (hw _ ⟨e.1, rfl⟩) _) r

theorem moves_recordQueueOperation (reporter : Bytes) (qa : QueueAppOperation) :
    Moves (Reported cfg) r (recordQueueOperation cfg (cfg.origin.qmgr reporter) r qa) := by
  have hw := @reported_series cfg (.queueOperation reporter qa) rfl
  dsimp only [recordQueueOperation]
  iterate 4 refine Moves.set ?_ (hw _ (by simp [Measurement.Writes])) _
  exact Moves.refl r

theorem moves_recordAccounting (acct : AccountingData) :
    Moves (Reported cfg) r (recordAccounting cfg acct r) := by
  refine Moves.trans ?_ (moves_foldl (fun r qa _ => ?_) _)
  · cases acct.operations with
    | none => exact Moves.refl r
    | some ops => exact moves_recordOperations acct.queueManager _ ops
  · exact moves_recordQueueOperation acct.queueManager qa

theorem moves_recordQueueOnlineStatus (qs : QueueOnlineStatus) :
    Moves (Reported cfg) r (recordQueueOnlineStatus cfg (Platform.platformName plat) r qs) := by
  have hw := @reported_series cfg (.queueOnline plat qs.queueName) rfl
  dsimp only [recordQueueOnlineStatus]
  iterate 6 refine Moves.set ?_ (hw _ (by simp [Measurement.Writes])) _
  exact Moves.refl r

theorem moves_recordChannelStatus (ch : ChannelStatusDetails) :
    Moves (Reported cfg) r (recordChannelStatus cfg (Platform.platformName plat) r ch) := by
  have hw := @reported_series cfg (.channel plat ch) rfl
  dsimp only [recordChannelStatus]
  iterate 17 refine Moves.set ?_ (hw _ (by simp [Measurement.Writes])) _
  exact Moves.refl r

theorem moves_recordTopicStatus (t : TopicStatusDetails) :
    Moves (Reported cfg) r (recordTopicStatus cfg (Platform.platformName plat) r t) := by
  have hw := @reported_series cfg (.topic plat t) rfl
  dsimp only [recordTopicStatus]
  iterate 2 refine Moves.set ?_ (hw _ (by simp [Measurement.Writes])) _
  exact Moves.refl r

theorem moves_recordSubStatus (s : SubStatusDetails) :
    Moves (Reported cfg) r (recordSubStatus cfg (Platform.platformName plat) r s) := by
  have hw := @reported_series cfg (.sub plat s) rfl
  dsimp only [recordSubStatus]
  iterate 3 refine Moves.set ?_ (hw _ (by simp [Measurement.Writes])) _
  exact Moves.refl r

theorem moves_recordQmgrStatus (clock : Clock) (status : QMgrStatusDetails) :
    Moves (Reported cfg) r
      (recordQmgrStatus cfg (Platform.platformName plat) clock status r) := by
  have hw := @reported_series cfg (.qmgr plat status.description) rfl
  have huptime (r : Registry) : Moves (Reported cfg) r
      (recordUptime clock (qmgrLabels cfg (Platform.platformName plat) status.description)
        status r) := by
    unfold recordUptime
    split
    · exact Moves.refl r
    split
    · exact Moves.refl r
    split
    · exact (Moves.refl r).set (hw _ (by simp [Measurement.Writes])) _
    · exact Moves.refl r
  dsimp only [recordQmgrStatus]
  refine Moves.trans ?_ (huptime _)
  iterate 4 refine Moves.set ?_ (hw _ (by simp [Measurement.Writes])) _
  exact Moves.refl r

theorem moves_recordClusterStatus (cl : ClusterQMgrDetails) :
    Moves (Reported cfg) r (recordClusterStatus cfg (Platform.platformName plat) r cl) := by
  have hw := @reported_series cfg (.cluster plat cl) rfl
  dsimp only [recordClusterStatus]
  iterate 2 refine Moves.set ?_ (hw _ (by simp [Measurement.Writes])) _
  exact Moves.refl r

theorem moves_recordUsageBp (bp : UsageBPDetails) :
    Moves (Reported cfg) r (recordUsageBp cfg (Platform.platformName plat) r bp) := by
  have hw := @reported_series cfg (.usageBp plat bp) rfl
  dsimp only [recordUsageBp]
  iterate 2 refine Moves.set ?_ (hw _ (by simp [Measurement.Writes])) _
  exact Moves.refl r

theorem moves_recordUsagePs (ps : UsagePSDetails) :
    Moves (Reported cfg) r (recordUsagePs cfg (Platform.platformName plat) r ps) := by
  have hw := @reported_series cfg (.usagePs plat ps) rfl
  dsimp only [recordUsagePs]
  iterate 2 refine Moves.set ?_ (hw _ (by simp [Measurement.Writes])) _
  exact Moves.refl r

theorem moves_recordPublications (p : Publisher) (pubs : List PublicationMetric) :
    Moves (Reported cfg) p.registry
      (pubs.foldl (recordPublication cfg (Platform.platformName plat)) p).registry := by
  rw [registry_foldl]
  refine moves_foldl (fun r pm _ => (Moves.refl r).set ?_ _) _
  exact reported_series (.publication plat pm) rfl _ ⟨_, rfl⟩

theorem moves_recordHandles (queueName : Bytes) {f : Family}
    (hf : f ∈ [Family.queueInputHandles, .queueOutputHandles]) (count : Int32) :
    Moves (Counted cfg) r (recordHandles f (handleLabels cfg queueName) count r) := by
  unfold recordHandles
  split
  · exact (Moves.refl r).set ⟨.handleCounts queueName, rfl, hf, rfl⟩ _
  · exact Moves.refl r

end Writing

end IbmmqExporter.Metrics
