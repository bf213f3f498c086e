/-
  Pcf/Status.lean --- the parsers of the status responses, of `pcf_inquiry.cpp`.

  Each of them fills a record from every response: for each type of parameter that it
  looks at, a `switch` over the ids says which field a value goes to.  Here a parser
  is these switches, and what they do is stated once for all parsers.

  WHAT THE FILE PROVES.  A parser returns on every list of responses in which no
  parameter makes the clamp of a reader wrap around.
-/
import IbmmqExporter.Pcf.InquirySafety

set_option autoImplicit false

namespace IbmmqExporter.Pcf

open Foundation

/-! ## Parsers -/

/-- The cases of a `switch (pid)`: under each id, what becomes of a value. -/
abbrev Cases (ν α : Type) : Type := List (UInt32 × (ν → α → α))

section Cases

variable {ν α : Type}

/-- The assignment of the case for `pid`, if there is one. -/
def Cases.assign (cases : Cases ν α) (pid : UInt32) (v : ν) (a : α) : α :=
  match cases.lookup pid with
  | some f => f v a
  | none => a

/-- Read a parameter and assign it.  A type of parameter without a case is not
looked at. -/
def Cases.visit (cases : Cases ν α) (read : Bytes → UInt32 → Parse ν) (a : α)
    (p : ResponseParam) : Parse α :=
  if cases.isEmpty then return a
  else do
    let v ← read p.pdata p.plen
    return cases.assign p.paramId v a

end Cases

/-- A parser of status responses, as its record before the first parameter, the
switches, and the test whether the record goes to the result. -/
structure StatusParser (α : Type) where
  empty : α
  strings : Cases Bytes α := []
  integers : Cases Int32 α := []
  integers64 : Cases Int64 α := []
  integerLists : Cases (List Int32) α := []
  keeps : α → Bool := fun _ => true

namespace StatusParser

variable {α : Type} (parser : StatusParser α)

/-- The visitor of `parse_pcf_response_params`. -/
def visit (a : α) (p : ResponseParam) : Parse α :=
  if p.paramType = 4 then parser.strings.visit readPcfString a p
  else if p.paramType = 3 then parser.integers.visit readPcfInt32 a p
  else if p.paramType = 23 then parser.integers64.visit readPcfInt64 a p
  else if p.paramType = 5 then parser.integerLists.visit readPcfIntList a p
  else return a

/-- The body of the loop over the responses. -/
def parseIn (result : List α) (resp : Bytes) : Parse (List α) := do
  if resp.length < 36 then return result
  else
    let a ← parsePcfResponseParams resp parser.visit parser.empty
    return if parser.keeps a then result ++ [a] else result

/-- The parser. -/
def parse (responses : List Bytes) : Parse (List α) := responses.foldlM parser.parseIn []

end StatusParser

/-! ## Channels -/

/-- `ChannelStatusDetails`. -/
structure ChannelStatusDetails where
  channelName : Bytes := []
  connectionName : Bytes := []
  remoteQmgr : Bytes := []
  jobName : Bytes := []
  sslCipher : Bytes := []
  channelType : Int32 := 0
  status : Int32 := 0
  msgs : Int32 := 0
  bytesSent : Int64 := 0
  bytesReceived : Int64 := 0
  batches : Int32 := 0
  substate : Int32 := 0
  instanceType : Int32 := 0
  buffersSent : Int32 := 0
  buffersReceived : Int32 := 0
  curSharingConvs : Int32 := 0
  maxInstances : Int32 := 0
  maxInstsPerClient : Int32 := 0
  nettimeShort : Int32 := 0
  nettimeLong : Int32 := 0
  xmitqTimeShort : Int32 := 0
  xmitqTimeLong : Int32 := 0
  batchSizeShort : Int32 := 0
  batchSizeLong : Int32 := 0
  startDate : Bytes := []
  startTime : Bytes := []
  lastMsgDate : Bytes := []
  lastMsgTime : Bytes := []
  deriving DecidableEq, Repr

/-- The parser of channel statuses. -/
def channelStatusParser : StatusParser ChannelStatusDetails where
  empty := {}
  strings :=
    [(3501, fun v ch => { ch with channelName := v }),
     (3506, fun v ch => { ch with connectionName := v }),
     (3507, fun v ch => { ch with remoteQmgr := v }),
     (3524, fun v ch => { ch with lastMsgTime := v }),
     (3525, fun v ch => { ch with lastMsgDate := v }),
     (3528, fun v ch => { ch with startTime := v }),
     (3529, fun v ch => { ch with startDate := v }),
     (3530, fun v ch => { ch with jobName := v }),
     (3544, fun v ch => { ch with sslCipher := v })]
  integers :=
    [(1527, fun v ch => { ch with status := v }),
     (1511, fun v ch => { ch with channelType := v }),
     (1534, fun v ch => { ch with msgs := v }),
     (1537, fun v ch => { ch with batches := v }),
     (1609, fun v ch => { ch with substate := v }),
     (1523, fun v ch => { ch with instanceType := v }),
     (1538, fun v ch => { ch with buffersSent := v }),
     (1539, fun v ch => { ch with buffersReceived := v }),
     (1585, fun v ch => { ch with curSharingConvs := v }),
     (1618, fun v ch => { ch with maxInstances := v }),
     (1619, fun v ch => { ch with maxInstsPerClient := v })]
  integers64 :=
    [(1535, fun v ch => { ch with bytesSent := v }),
     (1536, fun v ch => { ch with bytesReceived := v })]
  -- the indicators are pairs; of a shorter list the field that is missing stays
  integerLists :=
    [(1605, fun vals ch =>
       { ch with
         nettimeShort := vals.getD 0 ch.nettimeShort, nettimeLong := vals.getD 1 ch.nettimeLong }),
     (1604, fun vals ch =>
       { ch with
         xmitqTimeShort := vals.getD 0 ch.xmitqTimeShort
         xmitqTimeLong := vals.getD 1 ch.xmitqTimeLong }),
     (1607, fun vals ch =>
       { ch with
         batchSizeShort := vals.getD 0 ch.batchSizeShort
         batchSizeLong := vals.getD 1 ch.batchSizeLong })]
  keeps ch := decide (ch.channelName ≠ [])

/-- `PCFInquiry::parse_channel_status_response`. -/
def parseChannelStatusResponse (responses : List Bytes) : Parse (List ChannelStatusDetails) :=
  channelStatusParser.parse responses

/-! ## Topics and subscriptions -/

/-- `TopicStatusDetails`. -/
structure TopicStatusDetails where
  topicString : Bytes := []
  topicName : Bytes := []
  topicType : Int32 := 0
  pubCount : Int32 := 0
  subCount : Int32 := 0
  deriving DecidableEq, Repr

/-- The parser of topic statuses. -/
def topicStatusParser : StatusParser TopicStatusDetails where
  empty := {}
  strings :=
    [(2094, fun v topic => { topic with topicString := v }),
     (2092, fun v topic => { topic with topicName := v })]
  integers :=
    [(208, fun v topic => { topic with topicType := v }),
     (215, fun v topic => { topic with pubCount := v }),
     (204, fun v topic => { topic with subCount := v })]
  keeps topic := decide (topic.topicString ≠ [] ∨ topic.topicName ≠ [])

/-- `PCFInquiry::parse_topic_status_response`. -/
def parseTopicStatusResponse (responses : List Bytes) : Parse (List TopicStatusDetails) :=
  topicStatusParser.parse responses

/-- `SubStatusDetails`. -/
structure SubStatusDetails where
  subName : Bytes := []
  subId : Bytes := []
  topicString : Bytes := []
  destination : Bytes := []
  subType : Int32 := 0
  durable : Int32 := 0
  messageCount : Int32 := 0
  lastMsgDate : Bytes := []
  lastMsgTime : Bytes := []
  deriving DecidableEq, Repr

/-- The parser of subscription statuses. -/
def subStatusParser : StatusParser SubStatusDetails where
  empty := {}
  strings :=
    [(3152, fun v sub => { sub with subName := v }),
     (2094, fun v sub => { sub with topicString := v }),
     (3154, fun v sub => { sub with destination := v }),
     (7016, fun v sub => { sub with subId := v }),
     (3167, fun v sub => { sub with lastMsgTime := v }),
     (3168, fun v sub => { sub with lastMsgDate := v })]
  integers :=
    [(1289, fun v sub => { sub with subType := v }),
     (175, fun v sub => { sub with durable := v }),
     (1290, fun v sub => { sub with messageCount := v })]
  keeps sub := decide (sub.subName ≠ [])

/-- `PCFInquiry::parse_sub_status_response`. -/
def parseSubStatusResponse (responses : List Bytes) : Parse (List SubStatusDetails) :=
  subStatusParser.parse responses

/-! ## The queue manager and its cluster -/

/-- `QMgrStatusDetails`. -/
structure QMgrStatusDetails where
  qmgrName : Bytes := []
  description : Bytes := []
  status : Int32 := 0
  chinitStatus : Int32 := 0
  connectionCount : Int32 := 0
  cmdServerStatus : Int32 := 0
  startDate : Bytes := []
  startTime : Bytes := []
  deriving DecidableEq, Repr

/-- The parser of the queue manager's status; it keeps a record of every response. -/
def qmgrStatusParser : StatusParser QMgrStatusDetails where
  empty := {}
  strings :=
    [(2015, fun v qm => { qm with qmgrName := v }),
     (2014, fun v qm => { qm with description := v }),
     (3175, fun v qm => { qm with startDate := v }),
     (3176, fun v qm => { qm with startTime := v })]
  integers :=
    [(1149, fun v qm => { qm with status := v }),
     (1232, fun v qm => { qm with chinitStatus := v }),
     (1229, fun v qm => { qm with connectionCount := v }),
     (1233, fun v qm => { qm with cmdServerStatus := v })]

/-- `PCFInquiry::parse_qmgr_status_response`. -/
def parseQmgrStatusResponse (responses : List Bytes) : Parse (List QMgrStatusDetails) :=
  qmgrStatusParser.parse responses

/-- `ClusterQMgrDetails`. -/
structure ClusterQMgrDetails where
  clusterName : Bytes := []
  qmgrName : Bytes := []
  qmType : Int32 := 0
  status : Int32 := 0
  suspend : Int32 := 0
  deriving DecidableEq, Repr

/-- The parser of the queue managers of a cluster. -/
def clusterQmgrParser : StatusParser ClusterQMgrDetails where
  empty := {}
  strings :=
    [(2029, fun v cl => { cl with clusterName := v }),
     (2015, fun v cl => { cl with qmgrName := v })]
  integers :=
    [(125, fun v cl => { cl with qmType := v }),
     (1127, fun v cl => { cl with status := v }),
     (1087, fun v cl => { cl with suspend := v })]
  keeps cl := decide (cl.clusterName ≠ [])

/-- `PCFInquiry::parse_cluster_qmgr_response`. -/
def parseClusterQmgrResponse (responses : List Bytes) : Parse (List ClusterQMgrDetails) :=
  clusterQmgrParser.parse responses

/-! ## Buffer pools and page sets -/

/-- `UsageBPDetails`. -/
structure UsageBPDetails where
  bufferPool : Int32 := 0
  freeBuffers : Int32 := 0
  totalBuffers : Int32 := 0
  location : Int32 := 0
  pageClass : Int32 := 0
  deriving DecidableEq, Repr

/-- The parser of buffer pools. -/
def usageBpParser : StatusParser UsageBPDetails where
  empty := {}
  integers :=
    [(1158, fun v bp => { bp with bufferPool := v }),
     (1330, fun v bp => { bp with freeBuffers := v }),
     (1166, fun v bp => { bp with totalBuffers := v }),
     (1170, fun v bp => { bp with location := v })]

/-- `PCFInquiry::parse_usage_bp_response`. -/
def parseUsageBpResponse (responses : List Bytes) : Parse (List UsageBPDetails) :=
  usageBpParser.parse responses

/-- `UsagePSDetails`. -/
structure UsagePSDetails where
  pagesetId : Int32 := 0
  bufferPool : Int32 := 0
  totalPages : Int32 := 0
  unusedPages : Int32 := 0
  persistPages : Int32 := 0
  nonpersistPages : Int32 := 0
  restartPages : Int32 := 0
  expandCount : Int32 := 0
  deriving DecidableEq, Repr

/-- The parser of page sets. -/
def usagePsParser : StatusParser UsagePSDetails where
  empty := {}
  integers :=
    [(62, fun v ps => { ps with pagesetId := v }),
     (1170, fun v ps => { ps with bufferPool := v }),
     (1159, fun v ps => { ps with totalPages := v }),
     (1160, fun v ps => { ps with unusedPages := v }),
     (1161, fun v ps => { ps with persistPages := v }),
     (1162, fun v ps => { ps with nonpersistPages := v }),
     (1163, fun v ps => { ps with restartPages := v }),
     (1164, fun v ps => { ps with expandCount := v })]

/-- `PCFInquiry::parse_usage_ps_response`. -/
def parseUsagePsResponse (responses : List Bytes) : Parse (List UsagePSDetails) :=
  usagePsParser.parse responses

/-! ## Queues -/

/-- `QueueOnlineStatus`. -/
structure QueueOnlineStatus where
  queueName : Bytes := []
  oldestMsgAge : Int32 := 0
  uncommittedMsgs : Int32 := 0
  qtimeShort : Int32 := 0
  qtimeLong : Int32 := 0
  curQFileSize : Int32 := 0
  curMaxFileSize : Int32 := 0
  lastPutDate : Bytes := []
  lastPutTime : Bytes := []
  lastGetDate : Bytes := []
  lastGetTime : Bytes := []
  deriving DecidableEq, Repr

/-- The parser of queue statuses. -/
def queueOnlineStatusParser : StatusParser QueueOnlineStatus where
  empty := {}
  strings :=
    [(2016, fun v qs => { qs with queueName := v }),
     (3128, fun v qs => { qs with lastPutDate := v }),
     (3129, fun v qs => { qs with lastPutTime := v }),
     (3130, fun v qs => { qs with lastGetDate := v }),
     (3131, fun v qs => { qs with lastGetTime := v })]
  integers :=
    [(1227, fun v qs => { qs with oldestMsgAge := v }),
     (1027, fun v qs => { qs with uncommittedMsgs := v }),
     (1437, fun v qs => { qs with curQFileSize := v }),
     (1438, fun v qs => { qs with curMaxFileSize := v })]
  integerLists :=
    [(1226, fun vals qs =>
       { qs with qtimeShort := vals.getD 0 qs.qtimeShort, qtimeLong := vals.getD 1 qs.qtimeLong })]
  keeps qs := decide (qs.queueName ≠ [])

/-- `PCFInquiry::parse_queue_online_status_response`. -/
def parseQueueOnlineStatusResponse (responses : List Bytes) : Parse (List QueueOnlineStatus) :=
  queueOnlineStatusParser.parse responses

/-! ## Reads -/

section Reads

variable {α : Type}

theorem Cases.visit_returns {ν : Type} (cases : Cases ν α) {read : Bytes → UInt32 → Parse ν}
    {p : ResponseParam} (h : (read p.pdata p.plen).Returns) (a : α) :
    (cases.visit read a p).Returns := by
  unfold Cases.visit
  split
  · exact Outcome.returns_ok a
  · obtain ⟨v, hv⟩ := h
    rw [hv]
    exact Outcome.returns_ok _

theorem StatusParser.visit_returns (parser : StatusParser α) {p : ResponseParam}
    (h : ReadsInside p) (a : α) : (parser.visit a p).Returns := by
  unfold StatusParser.visit
  split
  · exact parser.strings.visit_returns h.string a
  · split
    · exact parser.integers.visit_returns h.int32 a
    · split
      · exact parser.integers64.visit_returns h.int64 a
      · split
        · exact parser.integerLists.visit_returns h.intList a
        · exact Outcome.returns_ok a

/-- A parser returns if no parameter of a response makes a clamp wrap around. -/
theorem StatusParser.parse_returns (parser : StatusParser α) {responses : List Bytes}
    (h : ∀ resp ∈ responses, ∀ p ∈ responseParams resp, ¬ StringWraps p ∧ ¬ ListWraps p) :
    (parser.parse responses).Returns := by
  refine Outcome.returns_foldlM (fun resp hresp result => ?_) []
  have hinside := (readsInside_iff resp).mpr (h resp hresp)
  unfold StatusParser.parseIn
  split
  · exact Outcome.returns_ok result
  · have hfold : (parsePcfResponseParams resp parser.visit parser.empty).Returns := by
      rw [parsePcfResponseParams_eq]
      exact Outcome.returns_foldlM (fun p hp a => parser.visit_returns (hinside p hp) a) _
    obtain ⟨a, ha⟩ := hfold
    rw [ha]
    exact Outcome.returns_ok _

end Reads

end IbmmqExporter.Pcf
