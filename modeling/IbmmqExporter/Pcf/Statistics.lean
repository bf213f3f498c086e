/-
  Pcf/Statistics.lean --- what `PCFParser::parse_message` makes of a statistics or
  accounting message.

  The records are those of `pcf_parser.h`, the functions those of `pcf_parser.cpp`;
  a `switch` over parameter ids is an if-chain, or a table where many ids lead to
  fields of one kind.  The two dozen 32-bit counters of `MQIStatistics` are one
  function on the names of its fields, and so are its 64-bit totals.
-/
import IbmmqExporter.Pcf.Parser

set_option autoImplicit false

namespace IbmmqExporter.Pcf

open Foundation

/-! ## Records -/

/-- The values that `ProcInfo::role` takes. -/
inductive Role where
  | input
  | output
  | unknown
  deriving DecidableEq, Repr

/-- `ProcInfo`: a process that has a queue open. -/
structure ProcInfo where
  applicationName : Bytes := []
  applicationTag : Bytes := []
  processId : Int32 := 0
  connectionName : Bytes := []
  userIdentifier : Bytes := []
  channelName : Bytes := []
  role : Role := .unknown
  deriving DecidableEq, Repr

/-- `QueueStatistics`. -/
structure QueueStatistics where
  queueName : Bytes := []
  currentDepth : Int32 := 0
  highDepth : Int32 := 0
  inputCount : Int32 := 0
  outputCount : Int32 := 0
  enqueueCount : Int32 := 0
  dequeueCount : Int32 := 0
  hasReaders : Bool := false
  hasWriters : Bool := false
  associatedProcs : List ProcInfo := []
  deriving DecidableEq, Repr

/-- `ChannelStatistics`. -/
structure ChannelStatistics where
  channelName : Bytes := []
  connectionName : Bytes := []
  messages : Int32 := 0
  bytes : Int64 := 0
  batches : Int32 := 0
  deriving DecidableEq, Repr

/-- The `int32_t` fields of `MQIStatistics`. -/
inductive MqiCounter where
  | opens | closes | puts | gets | commits | backouts | browses | inqs | sets
  | discCloseTimeout | discResetTimeout | fails | incompleteBatch | incompleteMsg
  | waitInterval | syncpointHeuristic | heaps | logicalConnections
  | physicalConnections | currentConns | persistentMsgs | nonPersistentMsgs
  | longMsgs | shortMsgs | stampEnabled | msgsReceived | msgsSent | channelStatus
  | channelType | channelErrors | channelDiscCount | fullBatches | partialBatches
  deriving DecidableEq, Repr

/-- The `int64_t` fields of `MQIStatistics`. -/
inductive MqiTotal where
  | queueTime | queueTimeMax | elapsedTime | elapsedTimeMax | connTime | connTimeMax
  | bytesReceived | bytesSent | backoutCount | commitsCount | rollbackCount
  deriving DecidableEq, Repr

/-- `MQIStatistics`. -/
structure MQIStatistics where
  applicationName : Bytes := []
  applicationTag : Bytes := []
  connectionName : Bytes := []
  userIdentifier : Bytes := []
  channelName : Bytes := []
  counter : MqiCounter → Int32 := fun _ => 0
  total : MqiTotal → Int64 := fun _ => 0

/-- `ConnectionInfo`. -/
structure ConnectionInfo where
  channelName : Bytes := []
  connectionName : Bytes := []
  applicationName : Bytes := []
  applicationTag : Bytes := []
  userIdentifier : Bytes := []
  deriving DecidableEq, Repr

/-- `OperationCounts`. -/
structure OperationCounts where
  gets : Int32 := 0
  puts : Int32 := 0
  browses : Int32 := 0
  opens : Int32 := 0
  closes : Int32 := 0
  commits : Int32 := 0
  backouts : Int32 := 0
  deriving DecidableEq, Repr

/-- `QueueAppOperation`. -/
structure QueueAppOperation where
  queueName : Bytes := []
  applicationName : Bytes := []
  connectionName : Bytes := []
  userIdentifier : Bytes := []
  puts : Int32 := 0
  gets : Int32 := 0
  msgsReceived : Int32 := 0
  msgsSent : Int32 := 0
  deriving DecidableEq, Repr

/-- `StatisticsData`. -/
structure StatisticsData where
  type : String := ""
  queueManager : Bytes := []
  queueStats : Option QueueStatistics := none
  channelStats : Option ChannelStatistics := none
  mqiStats : Option MQIStatistics := none

/-- `AccountingData`. -/
structure AccountingData where
  type : String := ""
  queueManager : Bytes := []
  connectionInfo : Option ConnectionInfo := none
  operations : Option OperationCounts := none
  queueOperations : List QueueAppOperation := []
  deriving DecidableEq, Repr

/-- `ParsedMessage`. -/
inductive ParsedMessage where
  | statistics (stats : StatisticsData)
  | accounting (acct : AccountingData)

/-! ## Queue statistics -/

/-- The `switch` over the text parameters of a group in `parse_queue_stats`. -/
def ProcInfo.withString (proc : ProcInfo) (id : Int32) (s : Bytes) : ProcInfo :=
  if id = mqcaApplName ∨ id = mqcacfApplName then { proc with applicationName := s }
  else if id = mqcaConnectionName ∨ id = mqcachConnectionName then
    { proc with connectionName := s }
  else if id = mqcacfUserIdentifier then { proc with userIdentifier := s }
  else if id = mqcaChannelName then { proc with channelName := s }
  else if id = mqcacfApplTag then { proc with applicationTag := s }
  else proc

/-- The `switch` over the number parameters of a group in `parse_queue_stats`. -/
def ProcInfo.withInt (proc : ProcInfo) (id v : Int32) : ProcInfo :=
  if id = mqiaOpenInputCount then if 0 < v then { proc with role := .input } else proc
  else if id = mqiaOpenOutputCount then
    if 0 < v then { proc with role := .output } else proc
  else if id = mqiacfProcessId then { proc with processId := v }
  else proc

/-- One parameter of a group in `parse_queue_stats`. -/
def ProcInfo.withParam (proc : ProcInfo) (np : PCFParameter) : ProcInfo :=
  match np.value with
  | .string s => proc.withString np.parameter s
  | .int32 v => proc.withInt np.parameter v
  | _ => proc

/-- The process that a group describes. -/
def parseProcInfo (nested : List PCFParameter) : ProcInfo :=
  nested.foldl ProcInfo.withParam {}

/-- The `switch` over the number parameters in `parse_queue_stats`. -/
def QueueStatistics.withInt (stats : QueueStatistics) (id v : Int32) :
    QueueStatistics :=
  if id = mqiaCurrentQDepth then { stats with currentDepth := v }
  else if id = mqiaHighQDepth then { stats with highDepth := v }
  else if id = mqiaOpenInputCount then
    { stats with inputCount := v, hasReaders := decide (0 < v) }
  else if id = mqiaOpenOutputCount then
    { stats with outputCount := v, hasWriters := decide (0 < v) }
  else if id = mqiaMsgEnqCount then { stats with enqueueCount := v }
  else if id = mqiaMsgDeqCount then { stats with dequeueCount := v }
  else stats

/-- One parameter in `parse_queue_stats`. -/
def QueueStatistics.withParam (stats : QueueStatistics) (p : PCFParameter) :
    QueueStatistics :=
  match p.value with
  | .group nested =>
      let proc := parseProcInfo nested
      if proc.applicationName ≠ [] ∨ proc.connectionName ≠ [] ∨
          proc.userIdentifier ≠ [] then
        { stats with associatedProcs := stats.associatedProcs ++ [proc] }
      else stats
  | .int32 v => stats.withInt p.parameter v
  | .string s => if p.parameter = mqcaQName then { stats with queueName := s } else stats
  | _ => stats

/-- `PCFParser::parse_queue_stats`. -/
def parseQueueStats (params : List PCFParameter) : QueueStatistics :=
  params.foldl QueueStatistics.withParam {}

/-! ## Channel statistics -/

/-- One parameter in `parse_channel_stats`. -/
def ChannelStatistics.withParam (stats : ChannelStatistics) (p : PCFParameter) :
    ChannelStatistics :=
  match p.value with
  | .int32 v =>
      if p.parameter = mqiachMsgs then { stats with messages := v }
      else if p.parameter = mqiachBytes then { stats with bytes := v.toInt64 }
      else if p.parameter = mqiachBatches then { stats with batches := v }
      else stats
  | .string s =>
      if p.parameter = mqcaChannelName then { stats with channelName := s }
      else if p.parameter = mqcaConnectionName then { stats with connectionName := s }
      else stats
  | _ => stats

/-- `PCFParser::parse_channel_stats`. -/
def parseChannelStats (params : List PCFParameter) : ChannelStatistics :=
  params.foldl ChannelStatistics.withParam {}

/-! ## MQI statistics -/

/-- The field that an integer list goes to in `parse_mqi_stats`: the cases that take
`sum32`. -/
def mqiListCounters : List (Int32 × MqiCounter) :=
  [(mqiamoOpens, .opens), (mqiamoCloses, .closes), (mqiamoPuts, .puts),
   (mqiamoGets, .gets), (mqiamoCommits, .commits), (mqiamoBackouts, .backouts),
   (mqiamoBrowses, .browses), (mqiamoInqs, .inqs), (mqiamoSets, .sets),
   (mqiamoMsgsRcvd, .msgsReceived), (mqiamoMsgsSent, .msgsSent),
   (mqiamoIncompleteBatches, .incompleteBatch),
   (mqiamoSyncpointHeuristic, .syncpointHeuristic), (mqiamoWaitInterval, .waitInterval),
   (mqiamoHeaps, .heaps), (mqiamoLogicalConnections, .logicalConnections),
   (mqiamoPhysicalConnections, .physicalConnections),
   (mqiamoCurrentConns, .currentConns), (mqiamoPersistentMsgs, .persistentMsgs),
   (mqiamoNonPersistentMsgs, .nonPersistentMsgs), (mqiamoLongMsgs, .longMsgs),
   (mqiamoShortMsgs, .shortMsgs)]

/-- The cases for an integer list in `parse_mqi_stats` that take `sum64`. -/
def mqiListTotals : List (Int32 × MqiTotal) :=
  [(mqiamoMsgBytesRcvd, .bytesReceived), (mqiamoBytesSent, .bytesSent),
   (mqiamoQueueTime, .queueTime), (mqiamoQueueTimeMax, .queueTimeMax),
   (mqiamoElapsedTime, .elapsedTime), (mqiamoElapsedTimeMax, .elapsedTimeMax),
   (mqiamoConnTime, .connTime), (mqiamoConnTimeMax, .connTimeMax)]

/-- The field that a single number goes to in `parse_mqi_stats`. -/
def mqiIntCounters : List (Int32 × MqiCounter) :=
  [(mqiamoOpens, .opens), (mqiamoCloses, .closes), (mqiamoPuts, .puts),
   (mqiamoGets, .gets), (mqiamoCommits, .commits), (mqiamoBackouts, .backouts),
   (mqiamoBrowses, .browses), (mqiamoInqs, .inqs), (mqiamoSets, .sets),
   (mqiamoDiscCloseTimeout, .discCloseTimeout),
   (mqiamoDiscResetTimeout, .discResetTimeout), (mqiamoFails, .fails),
   (mqiamoIncompleteBatches, .incompleteBatch), (mqiamoIncompleteMsg, .incompleteMsg),
   (mqiamoWaitInterval, .waitInterval), (mqiamoSyncpointHeuristic, .syncpointHeuristic),
   (mqiamoHeaps, .heaps), (mqiamoLogicalConnections, .logicalConnections),
   (mqiamoPhysicalConnections, .physicalConnections),
   (mqiamoCurrentConns, .currentConns), (mqiamoPersistentMsgs, .persistentMsgs),
   (mqiamoNonPersistentMsgs, .nonPersistentMsgs), (mqiamoLongMsgs, .longMsgs),
   (mqiamoShortMsgs, .shortMsgs), (mqiamoStampEnabled, .stampEnabled),
   (mqiamoMsgsRcvd, .msgsReceived), (mqiamoMsgsSent, .msgsSent),
   (mqiachChannelStatus, .channelStatus), (mqiachChannelType, .channelType),
   (mqiamoFullBatches, .fullBatches)]

/-- Assign a 32-bit field. -/
def MQIStatistics.setCounter (stats : MQIStatistics) (c : MqiCounter) (v : Int32) :
    MQIStatistics :=
  { stats with counter := Function.update stats.counter c v }

/-- Assign a 64-bit field. -/
def MQIStatistics.setTotal (stats : MQIStatistics) (t : MqiTotal) (v : Int64) :
    MQIStatistics :=
  { stats with total := Function.update stats.total t v }

/-- `sum32` of an integer list. -/
def sum32 (vs : List Int64) : Int32 := vs.foldl (fun sum v => sum + v.toInt32) 0

/-- `sum64` of an integer list. -/
def sum64 (vs : List Int64) : Int64 := vs.foldl (fun sum v => sum + v) 0

/-- The `switch` over the integer lists in `parse_mqi_stats`. -/
def MQIStatistics.withIntList (stats : MQIStatistics) (id : Int32) (vs : List Int64) :
    MQIStatistics :=
  match mqiListCounters.lookup id, mqiListTotals.lookup id with
  | some c, _ => stats.setCounter c (sum32 vs)
  | none, some t => stats.setTotal t (sum64 vs)
  | none, none => stats

/-- The `switch` over the single numbers in `parse_mqi_stats`. -/
def MQIStatistics.withInt (stats : MQIStatistics) (id v : Int32) : MQIStatistics :=
  match mqiIntCounters.lookup id with
  | some c => stats.setCounter c v
  | none => stats

/-- The `switch` over the texts in `parse_mqi_stats`. -/
def MQIStatistics.withString (stats : MQIStatistics) (id : Int32) (s : Bytes) :
    MQIStatistics :=
  if id = mqcaApplName ∨ id = mqcacfApplName then { stats with applicationName := s }
  else if id = mqcacfApplTag then { stats with applicationTag := s }
  else if id = mqcacfUserIdentifier then { stats with userIdentifier := s }
  else if id = mqcachConnectionName then { stats with connectionName := s }
  else if id = mqcaChannelName then { stats with channelName := s }
  else stats

/-- The counters that `parse_mqi_stats` adds up over nested groups. -/
def mqiNestedCounters : List MqiCounter :=
  [.opens, .closes, .puts, .gets, .commits, .backouts]

/-- What `parse_mqi_stats` takes over from the statistics `ns` of a nested group. -/
def MQIStatistics.withNested (stats ns : MQIStatistics) : MQIStatistics :=
  { stats with
    counter := fun c =>
      if c ∈ mqiNestedCounters then stats.counter c + ns.counter c else stats.counter c
    applicationName :=
      if ns.applicationName = [] then stats.applicationName else ns.applicationName }

/- One parameter in `parse_mqi_stats`, and the parameters of a list. -/
mutual
/-- One parameter in `parse_mqi_stats`. -/
def MQIStatistics.withParam (stats : MQIStatistics) : PCFParameter → MQIStatistics
  | ⟨_, _, .group nested⟩ => stats.withNested (MQIStatistics.withParams {} nested)
  | ⟨id, _, .intList vs⟩ => stats.withIntList id vs
  | ⟨id, _, .int32 v⟩ => stats.withInt id v
  | ⟨id, _, .string s⟩ => stats.withString id s
  | ⟨_, _, .monostate⟩ => stats
  | ⟨_, _, .int64 _⟩ => stats
  | ⟨_, _, .stringList _⟩ => stats
/-- The parameters of a list, in `parse_mqi_stats`. -/
def MQIStatistics.withParams (stats : MQIStatistics) : List PCFParameter → MQIStatistics
  | [] => stats
  | p :: ps => (stats.withParam p).withParams ps
end

/-- `PCFParser::parse_mqi_stats`. -/
def parseMqiStats (params : List PCFParameter) : MQIStatistics :=
  MQIStatistics.withParams {} params

/-! ## Accounting -/

/-- One parameter in `parse_connection_info`. -/
def ConnectionInfo.withParam (info : ConnectionInfo) (p : PCFParameter) :
    ConnectionInfo :=
  match p.value with
  | .string s =>
      if p.parameter = mqcaChannelName then { info with channelName := s }
      else if p.parameter = mqcaConnectionName ∨ p.parameter = mqcachConnectionName then
        { info with connectionName := s }
      else if p.parameter = mqcaApplName ∨ p.parameter = mqcacfApplName then
        { info with applicationName := s }
      else if p.parameter = mqcacfApplTag then { info with applicationTag := s }
      else if p.parameter = mqcacfUserIdentifier then { info with userIdentifier := s }
      else info
  | _ => info

/-- `PCFParser::parse_connection_info`. -/
def parseConnectionInfo (params : List PCFParameter) : ConnectionInfo :=
  params.foldl ConnectionInfo.withParam {}

/-- One parameter in `parse_operation_counts`. -/
def OperationCounts.withParam (ops : OperationCounts) (p : PCFParameter) :
    OperationCounts :=
  match p.value with
  | .int32 v =>
      if p.parameter = mqiamoGets then { ops with gets := v }
      else if p.parameter = mqiamoPuts then { ops with puts := v }
      else if p.parameter = mqiamoOpens then { ops with opens := v }
      else if p.parameter = mqiamoCloses then { ops with closes := v }
      else if p.parameter = mqiamoCommits then { ops with commits := v }
      else if p.parameter = mqiamoBackouts then { ops with backouts := v }
      else ops
  | _ => ops

/-- `PCFParser::parse_operation_counts`. -/
def parseOperationCounts (params : List PCFParameter) : OperationCounts :=
  params.foldl OperationCounts.withParam {}

/-- One parameter of a group in `parse_accounting`. -/
def QueueAppOperation.withParam (qa : QueueAppOperation) (np : PCFParameter) :
    QueueAppOperation :=
  match np.value with
  | .string s =>
      if np.parameter = mqcaQName then { qa with queueName := s }
      else if np.parameter = mqcaApplName ∨ np.parameter = mqcacfApplName then
        { qa with applicationName := s }
      else if np.parameter = mqcaConnectionName ∨
          np.parameter = mqcachConnectionName then
        { qa with connectionName := s }
      else if np.parameter = mqcacfUserIdentifier then { qa with userIdentifier := s }
      else qa
  | .int32 v =>
      if np.parameter = mqiamoPuts then { qa with puts := v }
      else if np.parameter = mqiamoGets then { qa with gets := v }
      else if np.parameter = mqiamoMsgsRcvd then { qa with msgsReceived := v }
      else if np.parameter = mqiamoMsgsSent then { qa with msgsSent := v }
      else qa
  | _ => qa

/-- The queue operation that a group describes in `parse_accounting`, if it names a
queue and counts something. -/
def parseQueueOperation (p : PCFParameter) : Option QueueAppOperation :=
  match p.value with
  | .group nested =>
      let qa := nested.foldl QueueAppOperation.withParam {}
      if qa.queueName ≠ [] ∧
          (qa.puts ≠ 0 ∨ qa.gets ≠ 0 ∨ qa.msgsReceived ≠ 0 ∨ qa.msgsSent ≠ 0) then
        some qa
      else none
  | _ => none

/-! ## Messages -/

/-- The loop over `MQCA_Q_MGR_NAME` in `parse_statistics` and `parse_accounting`. -/
def findQueueManager (params : List PCFParameter) : Bytes :=
  params.foldl (fun name p =>
    match p.value with
    | .string s => if p.parameter = mqcaQMgrName then s else name
    | _ => name) []

/-- `PCFParser::parse_statistics`. -/
def parseStatistics (hdr : PCFHeader) (params : List PCFParameter) : StatisticsData :=
  let stats : StatisticsData :=
    { type := "statistics", queueManager := findQueueManager params }
  if hdr.command = cmdStatisticsQ then
    { stats with queueStats := some (parseQueueStats params) }
  else if hdr.command = cmdStatisticsChannel then
    { stats with channelStats := some (parseChannelStats params) }
  else if hdr.command = cmdStatisticsMqi then
    { stats with mqiStats := some (parseMqiStats params) }
  else stats

/-- `PCFParser::parse_accounting`. -/
def parseAccounting (params : List PCFParameter) : AccountingData :=
  { type := "accounting"
    queueManager := findQueueManager params
    connectionInfo := some (parseConnectionInfo params)
    operations := some (parseOperationCounts params)
    queueOperations := params.filterMap parseQueueOperation }

/-- The `switch` over the command in `parse_message`. -/
def interpret (hdr : PCFHeader) (params : List PCFParameter) (msgType : String) :
    ParsedMessage :=
  if hdr.command = cmdStatisticsQ ∨ hdr.command = cmdStatisticsChannel ∨
      hdr.command = cmdStatisticsMqi then
    .statistics (parseStatistics hdr params)
  else if hdr.command = cmdAccountingQ ∨ hdr.command = cmdAccountingMqi then
    .accounting (parseAccounting params)
  else .statistics { type := msgType }

/-- `PCFParser::parse_message`. -/
def parseMessage (data : Bytes) (msgType : String) : Parse (Option ParsedMessage) := do
  if data.length < 36 then return none
  else
    let hdr ← parseHeader data
    let params ← parseParameters (data.drop 36)
    return some (interpret hdr params msgType)

end IbmmqExporter.Pcf
