/-
  Metrics/Status.lean --- the gauges that `MetricsCollector` sets from inquiries.

  Behind the messages, `collect_metrics` inquires about queues, channels, topics,
  subscriptions, the queue manager, its cluster, and buffer pools and page sets, and
  writes what it is told to the registry.
-/
import IbmmqExporter.Foundation.Double
import IbmmqExporter.Metrics.Selection
import IbmmqExporter.Pcf.Status

set_option autoImplicit false

/-! ## Inquiries -/

namespace IbmmqExporter.Mq

open Foundation Pcf

/-- The part that the inquiries share: send the command and parse the responses. -/
def inquireStatus {α : Type} (cmd : Bytes) (parse : List Bytes → Parse (List α)) :
    Method (List α) := do
  let responses ← sendPcfCommand cmd
  Effect.lift (parse responses)

/-- `MQClient::get_channel_status`. -/
def getChannelStatus (pattern : Bytes) : Method (List ChannelStatusDetails) :=
  inquireStatus (buildInquireChannelStatusCmd pattern) parseChannelStatusResponse

/-- `MQClient::get_topic_status`. -/
def getTopicStatus (pattern : Bytes) : Method (List TopicStatusDetails) :=
  inquireStatus (buildInquireTopicStatusCmd pattern) parseTopicStatusResponse

/-- `MQClient::get_sub_status`. -/
def getSubStatus (pattern : Bytes) : Method (List SubStatusDetails) :=
  inquireStatus (buildInquireSubStatusCmd pattern) parseSubStatusResponse

/-- `MQClient::get_qmgr_status`: the first of the statuses. -/
def getQmgrStatus : Method (Option QMgrStatusDetails) :=
  List.head? <$> inquireStatus buildInquireQmgrStatusCmd parseQmgrStatusResponse

/-- `MQClient::get_cluster_status`. -/
def getClusterStatus : Method (List ClusterQMgrDetails) :=
  inquireStatus buildInquireClusterQmgrCmd parseClusterQmgrResponse

/-- `MQClient::get_usage_bp_status`. -/
def getUsageBpStatus : Method (List UsageBPDetails) :=
  inquireStatus (buildInquireUsageCmd 1) parseUsageBpResponse

/-- `MQClient::get_usage_ps_status`. -/
def getUsagePsStatus : Method (List UsagePSDetails) :=
  inquireStatus (buildInquireUsageCmd 2) parseUsagePsResponse

/-- `MQClient::get_queue_online_status`. -/
def getQueueOnlineStatus (queueName : Bytes) : Method (List QueueOnlineStatus) :=
  inquireStatus (buildInquireQStatusOnlineCmd queueName) parseQueueOnlineStatusResponse

end IbmmqExporter.Mq

namespace IbmmqExporter.Metrics

open Foundation Pcf Mq

/-- `mq_client_->is_connected()`. -/
def clientConnected : Collect Bool := Effect.gets fun m => m.session.client.connected

/-! ## Labels -/

def channelLabel : LabelName := label "channel" validLabelName_channel
def rqmnameLabel : LabelName := label "rqmname"
def connnameLabel : LabelName := label "connname"
def jobnameLabel : LabelName := label "jobname"
def sslciphLabel : LabelName := label "sslciph"
def topicLabel : LabelName := label "topic"
def subscriptionLabel : LabelName := label "subscription"
def subidLabel : LabelName := label "subid"
def descriptionLabel : LabelName := label "description"
def clusterLabel : LabelName := label "cluster"
def qmtypeLabel : LabelName := label "qmtype"
def bufferpoolLabel : LabelName := label "bufferpool"
def locationLabel : LabelName := label "location"
def pageclassLabel : LabelName := label "pageclass"
def pagesetLabel : LabelName := label "pageset"

/-- The labels of a status: those of the queue manager, and what the status says of
itself. -/
def statusLabels (cfg : Config) (plat : Bytes) (entries : List (LabelName × Bytes)) : Labels :=
  cfg.addMetaLabels (labels ((qmgrLabel, cfg.queueManager) :: (platformLabel, plat) :: entries))

/-! ## Queues -/

/-- `MetricsCollector::collect_and_update_queue_metrics`. -/
def collectAndUpdateQueueMetrics (cfg : Config) (cachedQueues : List Bytes) : Collect Unit := do
  let connected ← clientConnected
  if connected = false then return
  else
    let plat ← platform
    Effect.forEach cachedQueues fun qname => do
      let info ← session (getQueueInfo qname)
      match info with
      | none => return
      | some info =>
          let ls := queueLabels cfg cfg.queueManager plat info.queueName
          record fun r =>
            (r.set .queueDepth ls info.currentDepth.toInt).set .queueMaxDepth ls
              info.maxQueueDepth.toInt

/-- The labels of a handle whose owner is not known. -/
def handleLabels (cfg : Config) (qname : Bytes) : Labels :=
  cfg.addMetaLabels (labels
    [(queueManagerLabel, cfg.queueManager), (queueNameLabel, qname),
     (label "userid" validLabelName_userid, []), (label "pid" validLabelName_pid, []),
     (channelLabel, []), (label "appltag" validLabelName_appltag, []),
     (label "conname" validLabelName_conname, [])])

/-- The gauge of one count of handles; a count that is not positive is left out. -/
def recordHandles (f : Family) (ls : Labels) (count : Int32) (r : Registry) : Registry :=
  if 0 < count then r.set f ls count.toInt else r

/-- `MetricsCollector::collect_and_update_handle_metrics`. -/
def collectAndUpdateHandleMetrics (cfg : Config) (cachedQueues : List Bytes) : Collect Unit := do
  let connected ← clientConnected
  if connected = false then return
  else if cachedQueues = [] then return
  else
    Effect.forEach cachedQueues fun qname => do
      let info ← session (getQueueInfo qname)
      match info with
      | none => return
      | some info =>
          record fun r =>
            recordHandles .queueOutputHandles (handleLabels cfg qname) info.openOutputCount
              (recordHandles .queueInputHandles (handleLabels cfg qname) info.openInputCount r)

/-- The gauges of a queue's status. -/
def recordQueueOnlineStatus (cfg : Config) (plat : Bytes) (r : Registry)
    (qs : QueueOnlineStatus) : Registry :=
  let ls := queueLabels cfg cfg.queueManager plat qs.queueName
  let r := r.set .queueOldestMsgAge ls qs.oldestMsgAge.toInt
  let r := r.set .queueUncommittedMsgs ls qs.uncommittedMsgs.toInt
  let r := r.set .queueQtimeShort ls qs.qtimeShort.toInt
  let r := r.set .queueQtimeLong ls qs.qtimeLong.toInt
  let r := r.set .queueQfileCurrentSize ls qs.curQFileSize.toInt
  r.set .queueQfileMaxSize ls qs.curMaxFileSize.toInt

/-- `MetricsCollector::collect_queue_online_status`. -/
def collectQueueOnlineStatus (cfg : Config) (cachedQueues : List Bytes) : Collect Unit := do
  let connected ← clientConnected
  if connected = false then return
  else if cachedQueues = [] then return
  else
    let plat ← platform
    let statuses ← session (getQueueOnlineStatus (ascii "*"))
    record fun r =>
      (statuses.filter fun qs => cachedQueues.contains qs.queueName).foldl
        (recordQueueOnlineStatus cfg plat) r

/-! ## Channels, topics and subscriptions -/

/-- The status of a channel made smaller: 0 for running or inactive, 1 for changing,
2 for stopped, and 3 for the others. -/
def squashStatus (status : Int32) : ℚ :=
  if status = 0 ∨ status = 3 then 0
  else if status = 1 ∨ status = 2 ∨ status = 7 ∨ status = 13 then 1
  else if status = 4 ∨ status = 5 ∨ status = 6 ∨ status = 8 then 2
  else 3

/-- The gauges of a channel's status. -/
def recordChannelStatus (cfg : Config) (plat : Bytes) (r : Registry)
    (ch : ChannelStatusDetails) : Registry :=
  let ls := statusLabels cfg plat
    [(channelLabel, ch.channelName), (typeLabel, decimal ch.channelType),
     (rqmnameLabel, ch.remoteQmgr), (connnameLabel, ch.connectionName),
     (jobnameLabel, ch.jobName), (sslciphLabel, ch.sslCipher)]
  let r := r.set .channelStatus ls ch.status.toInt
  let r := r.set .channelStatusMsgs ls ch.msgs.toInt
  let r := r.set .channelBytesSent ls (toDouble ch.bytesSent.toInt)
  let r := r.set .channelBytesReceived ls (toDouble ch.bytesReceived.toInt)
  let r := r.set .channelBuffersSent ls ch.buffersSent.toInt
  let r := r.set .channelBuffersReceived ls ch.buffersReceived.toInt
  let r := r.set .channelSubstate ls ch.substate.toInt
  let r := r.set .channelInstanceType ls ch.instanceType.toInt
  let r := r.set .channelNettimeShort ls ch.nettimeShort.toInt
  let r := r.set .channelNettimeLong ls ch.nettimeLong.toInt
  let r := r.set .channelXmitqTimeShort ls ch.xmitqTimeShort.toInt
  let r := r.set .channelXmitqTimeLong ls ch.xmitqTimeLong.toInt
  let r := r.set .channelBatchSizeShort ls ch.batchSizeShort.toInt
  let r := r.set .channelBatchSizeLong ls ch.batchSizeLong.toInt
  let r := r.set .channelMaxInstc ls ch.maxInstances.toInt
  let r := r.set .channelCurInstc ls ch.curSharingConvs.toInt
  r.set .channelStatusSquash ls (squashStatus ch.status)

/-- The loop over patterns of the status methods. -/
def collectPatterns {α : Type} (patterns : List Bytes) (inquire : Bytes → Method (List α))
    (write : Registry → α → Registry) : Collect Unit :=
  Effect.forEach patterns fun pattern => do
    let statuses ← session (inquire pattern)
    record fun r => statuses.foldl write r

/-- `MetricsCollector::collect_channel_status`. -/
def collectChannelStatus (cfg : Config) (monitoredChannels : List Bytes) : Collect Unit := do
  let plat ← platform
  collectPatterns (if monitoredChannels = [] then [ascii "*"] else monitoredChannels)
    getChannelStatus (recordChannelStatus cfg plat)

/-- The gauges of a topic's status. -/
def recordTopicStatus (cfg : Config) (plat : Bytes) (r : Registry) (t : TopicStatusDetails) :
    Registry :=
  let ls := statusLabels cfg plat
    [(topicLabel, if t.topicString = [] then t.topicName else t.topicString),
     (typeLabel, decimal t.topicType)]
  (r.set .topicPubCount ls t.pubCount.toInt).set .topicSubCount ls t.subCount.toInt

/-- `MetricsCollector::collect_topic_status`. -/
def collectTopicStatus (cfg : Config) (monitoredTopics : List Bytes) : Collect Unit := do
  if monitoredTopics = [] then return
  else
    let plat ← platform
    collectPatterns monitoredTopics getTopicStatus (recordTopicStatus cfg plat)

/-- The gauges of a subscription's status. -/
def recordSubStatus (cfg : Config) (plat : Bytes) (r : Registry) (s : SubStatusDetails) :
    Registry :=
  let ls := statusLabels cfg plat
    [(subscriptionLabel, s.subName), (subidLabel, s.subId), (topicLabel, s.topicString),
     (typeLabel, decimal s.subType)]
  let r := r.set .subDurable ls s.durable.toInt
  let r := r.set .subType ls s.subType.toInt
  r.set .subMessageCount ls s.messageCount.toInt

/-- `MetricsCollector::collect_sub_status`. -/
def collectSubStatus (cfg : Config) (monitoredSubscriptions : List Bytes) : Collect Unit := do
  if monitoredSubscriptions = [] then return
  else
    let plat ← platform
    collectPatterns monitoredSubscriptions getSubStatus (recordSubStatus cfg plat)

/-! ## The queue manager -/

/-- What the clock and the time zone of the host say in a cycle. -/
structure Clock where
  /-- `std::mktime` of what `std::get_time` reads with `%Y-%m-%d %H.%M.%S`; none if it
  fails -/
  epochOf : Bytes → Option Int := fun _ => none
  /-- the seconds of `system_clock::now()` behind the status of the queue manager -/
  statusTime : Int := 0
  /-- the same at the end of the cycle -/
  now : Int := 0

/-- The labels of the queue manager's status. -/
def qmgrLabels (cfg : Config) (plat description : Bytes) : Labels :=
  statusLabels cfg plat [(descriptionLabel, description)]

/-- The time since the queue manager was started. -/
def recordUptime (clock : Clock) (ls : Labels) (status : QMgrStatusDetails) (r : Registry) :
    Registry :=
  if status.startDate = [] ∨ status.startTime = [] then r
  else
    match clock.epochOf (status.startDate ++ ascii " " ++ status.startTime) with
    | none => r
    | some start =>
        if 0 ≤ start ∧ 0 < clock.statusTime - start then
          r.set .qmgrUptime ls (toDouble (clock.statusTime - start : Int))
        else r

/-- The gauges of the queue manager's status. -/
def recordQmgrStatus (cfg : Config) (plat : Bytes) (clock : Clock) (status : QMgrStatusDetails)
    (r : Registry) : Registry :=
  let ls := qmgrLabels cfg plat status.description
  let r := r.set .qmgrStatus ls status.status.toInt
  let r := r.set .qmgrConnectionCount ls status.connectionCount.toInt
  let r := r.set .qmgrChinitStatus ls status.chinitStatus.toInt
  let r := r.set .qmgrCmdServerStatus ls status.cmdServerStatus.toInt
  recordUptime clock ls status r

/-- `MetricsCollector::collect_qmgr_status`. -/
def collectQmgrStatus (cfg : Config) (clock : Clock) : Collect Unit := do
  let status ← session getQmgrStatus
  let plat ← platform
  match status with
  | some status => record (recordQmgrStatus cfg plat clock status)
  | none => record fun r => r.set .qmgrStatus (qmgrLabels cfg plat []) 0

/-- The gauges of a queue manager of a cluster. -/
def recordClusterStatus (cfg : Config) (plat : Bytes) (r : Registry) (cl : ClusterQMgrDetails) :
    Registry :=
  let ls := statusLabels cfg plat
    [(clusterLabel, cl.clusterName), (qmtypeLabel, decimal cl.qmType)]
  (r.set .clusterQmgrStatus ls cl.status.toInt).set .clusterQmgrSuspend ls cl.suspend.toInt

/-- `MetricsCollector::collect_cluster_status`. -/
def collectClusterStatus (cfg : Config) : Collect Unit := do
  let clusters ← session getClusterStatus
  let plat ← platform
  record fun r => clusters.foldl (recordClusterStatus cfg plat) r

/-- The gauges of a buffer pool. -/
def recordUsageBp (cfg : Config) (plat : Bytes) (r : Registry) (bp : UsageBPDetails) : Registry :=
  let ls := statusLabels cfg plat
    [(bufferpoolLabel, decimal bp.bufferPool), (locationLabel, decimal bp.location),
     (pageclassLabel, decimal bp.pageClass)]
  (r.set .usageBpFree ls bp.freeBuffers.toInt).set .usageBpTotal ls bp.totalBuffers.toInt

/-- The gauges of a page set. -/
def recordUsagePs (cfg : Config) (plat : Bytes) (r : Registry) (ps : UsagePSDetails) : Registry :=
  let ls := statusLabels cfg plat
    [(pagesetLabel, decimal ps.pagesetId), (bufferpoolLabel, decimal ps.bufferPool)]
  (r.set .usagePsTotal ls ps.totalPages.toInt).set .usagePsUnused ls ps.unusedPages.toInt

/-- `MetricsCollector::collect_usage_status`. -/
def collectUsageStatus (cfg : Config) : Collect Unit := do
  let plat ← platform
  let bps ← session getUsageBpStatus
  record fun r => bps.foldl (recordUsageBp cfg plat) r
  let pss ← session getUsagePsStatus
  record fun r => pss.foldl (recordUsagePs cfg plat) r

/-! ## The end of a cycle -/

/-- The labels of `last_collection_timestamp`. -/
def timestampLabels (cfg : Config) : Labels :=
  cfg.addMetaLabels (labels [(queueManagerLabel, cfg.queueManager)])

/-- `MetricsCollector::set_baseline_metrics`. -/
def setBaselineMetrics (cfg : Config) (clock : Clock) : Collect Unit := do
  record fun r => r.set .lastCollectionTime (timestampLabels cfg) clock.now
  let plat ← platform
  record fun r => r.set .collectionInfo (collectionLabels cfg plat) 1

end IbmmqExporter.Metrics
