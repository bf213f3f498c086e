/-
  Metrics/Messages.lean --- what `MetricsCollector` makes of the messages of the
  statistics and accounting queues.

  The functions are those of `metrics_collector.cpp`.  The state has, beside the
  client and the registry, a record of the messages that have been handed to
  `process_statistics_message` and `process_accounting_message`; no function reads
  it.
-/
import IbmmqExporter.Metrics.Registry
import IbmmqExporter.Mq.Client

set_option autoImplicit false

namespace IbmmqExporter.Metrics

open Foundation Pcf Mq

/-! ## State -/

/-- The configuration as far as the messages are concerned, and the version the
program was built as. -/
structure Config where
  queueManager : Bytes
  channel : Bytes := []
  /-- assumed to be names that prometheus-cpp accepts -/
  metadataTags : List LabelName := []
  metadataValues : List Bytes := []
  version : Bytes := []

/-- The client, the registry, and the messages handed on so far. -/
structure MetricsCollector where
  session : Session := {}
  registry : Registry := fun _ _ => none
  handed : List (QueueType × MQMessage) := []

/-- The calls that the session of a collector has made. -/
def MetricsCollector.log (c : MetricsCollector) : List MqiEvent := c.session.log

/-- A method of `MetricsCollector`. -/
abbrev Collect (α : Type) : Type := Effect MetricsCollector StdException α

/-- A method of the client. -/
def session {α : Type} (c : Method α) : Collect α :=
  Effect.zoom MetricsCollector.session (fun s m => { m with session := s }) c

section Session

variable {α : Type} {c : Method α} {m : MetricsCollector} {s : Session}

theorem session_ok {a : α} (h : c m.session = (.ok a, s)) :
    session c m = (.ok a, { m with session := s }) := by
  unfold session
  rw [Effect.zoom_apply, h]

theorem session_raised {e : StdException} (h : c m.session = (.raised e, s)) :
    session c m = (.raised e, { m with session := s }) := by
  unfold session
  rw [Effect.zoom_apply, h]

theorem session_undefined (h : c m.session = (.undefined, s)) :
    session c m = (.undefined, { m with session := s }) := by
  unfold session
  rw [Effect.zoom_apply, h]

end Session

/-- Write to the registry. -/
def record (f : Registry → Registry) : Collect Unit :=
  Effect.modify fun m => { m with registry := f m.registry }

/-- Note that a message is being processed. -/
def hand (queueType : QueueType) (msg : MQMessage) : Collect Unit :=
  Effect.modify fun m => { m with handed := m.handed ++ [(queueType, msg)] }

/-- `mq_client_->get_platform_string()`. -/
def platform : Collect Bytes := Effect.gets fun m => m.session.client.platformString

/-- `MetricsCollector::add_meta_labels`. -/
def Config.addMetaLabels (cfg : Config) (ls : Labels) : Labels :=
  (cfg.metadataTags.zip cfg.metadataValues).foldl (fun ls e => ls.insert e.1 e.2) ls

/-! ## Statistics -/

/-- `ProcInfo::role` as a text. -/
def roleText : Role → Bytes
  | .input => ascii "input"
  | .output => ascii "output"
  | .unknown => ascii "unknown"

/-- The label `open_mode` of a process. -/
def openMode : Role → Bytes
  | .input => ascii "Input"
  | .output => ascii "Output"
  | .unknown => ascii "Unknown"

/-- The family that a process with the queue open is counted in. -/
def handlesFamily : Role → Family
  | .input => .queueInputHandles
  | .output => .queueOutputHandles
  | .unknown => .queueOutputHandles

/-- The loop over the associated processes in `process_statistics_message`. -/
def recordProc (cfg : Config) (qmgr queueName : Bytes) (r : Registry) (proc : ProcInfo) :
    Registry :=
  let r := r.set .queueProcess (cfg.addMetaLabels (labels
    [(label "queue_manager", qmgr), (label "queue_name", queueName),
     (label "application_name", proc.applicationName),
     (label "source_ip", proc.connectionName), (label "role", roleText proc.role)])) 1
  let r := r.set .queueHandleInfo (cfg.addMetaLabels (labels
    [(label "queue_manager", qmgr), (label "queue_name", queueName),
     (label "application_name", proc.applicationName),
     (label "user_identifier", proc.userIdentifier),
     (label "open_mode", openMode proc.role), (label "handle_state", ascii "Open")])) 1
  let r := r.set .queueProcessDetail (cfg.addMetaLabels (labels
    [(label "queue_manager", qmgr), (label "queue_name", queueName),
     (label "application_name", proc.applicationName),
     (label "process_id", decimal proc.processId),
     (label "user_identifier", proc.userIdentifier), (label "role", roleText proc.role)])) 1
  r.set (handlesFamily proc.role) (cfg.addMetaLabels (labels
    [(label "queue_manager", qmgr), (label "queue_name", queueName),
     (label "userid", proc.userIdentifier), (label "pid", decimal proc.processId),
     (label "channel", proc.channelName), (label "appltag", proc.applicationTag),
     (label "conname", proc.connectionName)])) 1

/-- The label that names a queue. -/
def queueNameLabel : LabelName := label "queue_name"

/-- The labels of a queue in `process_statistics_message`. -/
def queueLabels (cfg : Config) (qmgr plat queueName : Bytes) : Labels :=
  cfg.addMetaLabels (labels
    [(label "queue_manager", qmgr), (queueNameLabel, queueName), (label "platform", plat)])

/-- The part of `process_statistics_message` about a queue. -/
def recordQueueStats (cfg : Config) (qmgr plat : Bytes) (qs : QueueStatistics) (r : Registry) :
    Registry :=
  let ql := queueLabels cfg qmgr plat qs.queueName
  let r := r.set .queueDepth ql qs.currentDepth.toInt
  let r := r.set .queueHighDepth ql qs.highDepth.toInt
  let r := r.set .queueEnqueue ql qs.enqueueCount.toInt
  let r := r.set .queueDequeue ql qs.dequeueCount.toInt
  let r := r.set .queueReaders ql (if qs.hasReaders then 1 else 0)
  let r := r.set .queueWriters ql (if qs.hasWriters then 1 else 0)
  qs.associatedProcs.foldl (recordProc cfg qmgr qs.queueName) r

/-- The part of `process_statistics_message` about a channel. -/
def recordChannelStats (cfg : Config) (qmgr : Bytes) (cs : ChannelStatistics) (r : Registry) :
    Registry :=
  let cl := cfg.addMetaLabels (labels
    [(label "queue_manager", qmgr), (label "channel_name", cs.channelName),
     (label "connection_name", cs.connectionName)])
  let r := r.set .channelMessages cl cs.messages.toInt
  let r := r.set .channelBytes cl cs.bytes.toInt
  r.set .channelBatches cl cs.batches.toInt

/-- The 32-bit numbers, in the order in which `update_mqi_gauges` sets them. -/
def mqiCounters : List MqiCounter :=
  [.opens, .closes, .puts, .gets, .commits, .backouts, .browses, .inqs, .sets,
   .discCloseTimeout, .discResetTimeout, .fails, .incompleteBatch, .incompleteMsg,
   .waitInterval, .syncpointHeuristic, .heaps, .logicalConnections, .physicalConnections,
   .currentConns, .persistentMsgs, .nonPersistentMsgs, .longMsgs, .shortMsgs,
   .stampEnabled, .msgsReceived, .msgsSent, .channelStatus, .channelType, .channelErrors,
   .channelDiscCount, .fullBatches, .partialBatches]

/-- The 64-bit numbers, in the order in which `update_mqi_gauges` sets them. -/
def mqiTotals : List MqiTotal :=
  [.queueTime, .queueTimeMax, .elapsedTime, .elapsedTimeMax, .connTime, .connTimeMax,
   .bytesReceived, .bytesSent, .backoutCount, .commitsCount, .rollbackCount]

/-- `MetricsCollector::update_mqi_gauges`. -/
def updateMqiGauges (cfg : Config) (mqi : MQIStatistics) (qmgr : Bytes) (r : Registry) :
    Registry :=
  let ls := cfg.addMetaLabels (labels
    [(label "queue_manager", qmgr), (label "application_name", mqi.applicationName),
     (label "application_tag", mqi.applicationTag),
     (label "user_identifier", mqi.userIdentifier),
     (label "connection_name", mqi.connectionName), (label "channel_name", mqi.channelName)])
  let r := mqiCounters.foldl (fun r c => r.set (.mqiCounter c) ls (mqi.counter c).toInt) r
  mqiTotals.foldl (fun r t => r.set (.mqiTotal t) ls (mqi.total t).toInt) r

/-- What `process_statistics_message` writes to the registry. -/
def recordStatistics (cfg : Config) (plat : Bytes) (stats : StatisticsData) (r : Registry) :
    Registry :=
  let qmgr := if stats.queueManager = [] then cfg.queueManager else stats.queueManager
  let r :=
    match stats.queueStats with
    | some qs => recordQueueStats cfg qmgr plat qs r
    | none => r
  let r :=
    match stats.channelStats with
    | some cs => recordChannelStats cfg qmgr cs r
    | none => r
  match stats.mqiStats with
  | some mqi => updateMqiGauges cfg mqi qmgr r
  | none => r

/-- `MetricsCollector::process_statistics_message`. -/
def processStatisticsMessage (cfg : Config) (msg : MQMessage) : Collect Unit := do
  hand .stats msg
  let result ← Effect.lift (parseMessage msg.data "statistics")
  match result with
  | some (.statistics stats) =>
      let plat ← platform
      record (recordStatistics cfg plat stats)
  | _ => return

/-! ## Accounting -/

/-- The counters that `process_accounting_message` adds. -/
def accountingCounts (ops : OperationCounts) : List (MqiCounter × Int32) :=
  [(.opens, ops.opens), (.closes, ops.closes), (.puts, ops.puts), (.gets, ops.gets),
   (.commits, ops.commits), (.backouts, ops.backouts)]

/-- The part of `process_accounting_message` about the operations. -/
def recordOperations (cfg : Config) (qmgr : Bytes) (info : ConnectionInfo)
    (ops : OperationCounts) (r : Registry) : Registry :=
  let ls := cfg.addMetaLabels (labels
    [(label "queue_manager", qmgr), (label "application_name", info.applicationName),
     (label "application_tag", info.applicationTag),
     (label "user_identifier", info.userIdentifier),
     (label "connection_name", info.connectionName), (label "channel_name", info.channelName)])
  (accountingCounts ops).foldl (fun r e => r.increment (.mqiCounter e.1) ls e.2.toInt) r

/-- The loop over the queue operations in `process_accounting_message`. -/
def recordQueueOperation (cfg : Config) (qmgr : Bytes) (r : Registry)
    (qa : QueueAppOperation) : Registry :=
  let ql := cfg.addMetaLabels (labels
    [(label "queue_manager", qmgr), (label "queue_name", qa.queueName),
     (label "application_name", qa.applicationName), (label "source_ip", qa.connectionName),
     (label "user_identifier", qa.userIdentifier)])
  let r := r.set .queueAppPuts ql qa.puts.toInt
  let r := r.set .queueAppGets ql qa.gets.toInt
  let r := r.set .queueAppMsgsReceived ql qa.msgsReceived.toInt
  r.set .queueAppMsgsSent ql qa.msgsSent.toInt

/-- What `process_accounting_message` writes to the registry. -/
def recordAccounting (cfg : Config) (acct : AccountingData) (r : Registry) : Registry :=
  let qmgr := if acct.queueManager = [] then cfg.queueManager else acct.queueManager
  let r :=
    match acct.operations with
    | some ops => recordOperations cfg qmgr (acct.connectionInfo.getD {}) ops r
    | none => r
  acct.queueOperations.foldl (recordQueueOperation cfg qmgr) r

/-- `MetricsCollector::process_accounting_message`. -/
def processAccountingMessage (cfg : Config) (msg : MQMessage) : Collect Unit := do
  hand .accounting msg
  let result ← Effect.lift (parseMessage msg.data "accounting")
  match result with
  | some (.accounting acct) => record (recordAccounting cfg acct)
  | _ => return

/-! ## Batches -/

/-- The labels of the collection info series. -/
def collectionLabels (cfg : Config) (plat : Bytes) : Labels :=
  cfg.addMetaLabels (labels
    [(label "queue_manager", cfg.queueManager), (label "channel", cfg.channel),
     (label "platform", plat), (label "collector_version", cfg.version)])

/-- `MetricsCollector::update_metrics_from_messages`. -/
def updateMetricsFromMessages (cfg : Config) (statsMsgs acctMsgs : List MQMessage) :
    Collect Unit := do
  Effect.forEach statsMsgs (processStatisticsMessage cfg)
  Effect.forEach acctMsgs (processAccountingMessage cfg)
  let plat ← platform
  record fun r => r.set .collectionInfo (collectionLabels cfg plat) 1

/-- `MetricsCollector::collect_messages`: an exception stands for no messages. -/
def collectMessages (queueType : QueueType) : Collect (List MQMessage) :=
  Effect.tryCatch (session (getAllMessages queueType)) fun _ => return []

/-- The first part of `MetricsCollector::collect_metrics`, about the messages. -/
def collectAllMessages (cfg : Config) : Collect Unit := do
  let statsMsgs ← collectMessages .stats
  let acctMsgs ← collectMessages .accounting
  updateMetricsFromMessages cfg statsMsgs acctMsgs

end IbmmqExporter.Metrics
