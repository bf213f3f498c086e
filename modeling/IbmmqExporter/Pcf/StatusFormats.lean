/-
  Pcf/StatusFormats.lean --- the other status records, and the responses that carry them.

  Topics, subscriptions, the queue manager, the queue managers of a cluster and page sets
  are encoded field by field, as channels and queues are.  Of a buffer pool the record has
  a field more than the parser knows: the page class is never read.

  WHAT THE FILE PROVES.  Each of these parsers gives back the records of a list of
  responses, with error replies between them if it keeps no record without a name
  (`Decodes.parse_among`); the page class of a buffer pool is zero.
-/
import IbmmqExporter.Pcf.StatusRoundTrip

set_option autoImplicit false

namespace IbmmqExporter.Pcf

open Foundation

/-! ## Formats -/

/-- The fields of a topic status. -/
def topicStatusFormat : StatusFormat TopicStatusDetails where
  fields topic :=
    [.string 2094 topic.topicString, .string 2092 topic.topicName,
     .integer 208 topic.topicType, .integer 215 topic.pubCount, .integer 204 topic.subCount]
  Named topic := topic.topicString ≠ [] ∨ topic.topicName ≠ []

/-- The fields of a subscription status. -/
def subStatusFormat : StatusFormat SubStatusDetails where
  fields sub :=
    [.string 3152 sub.subName, .string 2094 sub.topicString, .string 3154 sub.destination,
     .string 7016 sub.subId, .string 3167 sub.lastMsgTime, .string 3168 sub.lastMsgDate,
     .integer 1289 sub.subType, .integer 175 sub.durable, .integer 1290 sub.messageCount]
  Named sub := sub.subName ≠ []

/-- The fields of the queue manager's status. -/
def qmgrStatusFormat : StatusFormat QMgrStatusDetails where
  fields qm :=
    [.string 2015 qm.qmgrName, .string 2014 qm.description, .string 3175 qm.startDate,
     .string 3176 qm.startTime, .integer 1149 qm.status, .integer 1232 qm.chinitStatus,
     .integer 1229 qm.connectionCount, .integer 1233 qm.cmdServerStatus]
  Named _ := True

/-- The fields of a queue manager of a cluster. -/
def clusterQmgrFormat : StatusFormat ClusterQMgrDetails where
  fields cl :=
    [.string 2029 cl.clusterName, .string 2015 cl.qmgrName, .integer 125 cl.qmType,
     .integer 1127 cl.status, .integer 1087 cl.suspend]
  Named cl := cl.clusterName ≠ []

/-- The fields of a page set. -/
def usagePsFormat : StatusFormat UsagePSDetails where
  fields ps :=
    [.integer 62 ps.pagesetId, .integer 1170 ps.bufferPool, .integer 1159 ps.totalPages,
     .integer 1160 ps.unusedPages, .integer 1161 ps.persistPages,
     .integer 1162 ps.nonpersistPages, .integer 1163 ps.restartPages,
     .integer 1164 ps.expandCount]
  Named _ := True

/-- What the parser of buffer pools reads of one. -/
structure BufferPool where
  bufferPool : Int32 := 0
  freeBuffers : Int32 := 0
  totalBuffers : Int32 := 0
  location : Int32 := 0
  deriving DecidableEq, Repr

/-- The fields of a buffer pool. -/
def bufferPoolFormat : StatusFormat BufferPool where
  fields bp :=
    [.integer 1158 bp.bufferPool, .integer 1330 bp.freeBuffers,
     .integer 1166 bp.totalBuffers, .integer 1170 bp.location]
  Named _ := True

/-! ## Records -/

theorem topicStatus_decodes : Decodes topicStatusParser topicStatusFormat := by
  refine decodes_of_writes (fun topic =>
    [fun b => { b with topicString := topic.topicString },
     fun b => { b with topicName := topic.topicName },
     fun b => { b with topicType := topic.topicType },
     fun b => { b with pubCount := topic.pubCount },
     fun b => { b with subCount := topic.subCount }])
    (fun _ h => decide_eq_true (p := _ ∨ _) h) (fun _ => rfl) (fun _ => rfl) (fun _ => rfl) fun topic => ?_
  simp only [List.pairwise_cons, List.forall_mem_cons, List.not_mem_nil, List.Pairwise.nil,
    false_imp_iff, implies_true, and_true]
  and_intros <;> exact fun _ => rfl

theorem subStatus_decodes : Decodes subStatusParser subStatusFormat := by
  refine decodes_of_writes (fun sub =>
    [fun b => { b with subName := sub.subName },
     fun b => { b with topicString := sub.topicString },
     fun b => { b with destination := sub.destination },
     fun b => { b with subId := sub.subId },
     fun b => { b with lastMsgTime := sub.lastMsgTime },
     fun b => { b with lastMsgDate := sub.lastMsgDate },
     fun b => { b with subType := sub.subType },
     fun b => { b with durable := sub.durable },
     fun b => { b with messageCount := sub.messageCount }])
    (fun _ h => decide_eq_true (p := _ ≠ []) h) (fun _ => rfl) (fun _ => rfl) (fun _ => rfl) fun sub => ?_
  simp only [List.pairwise_cons, List.forall_mem_cons, List.not_mem_nil, List.Pairwise.nil,
    false_imp_iff, implies_true, and_true]
  and_intros <;> exact fun _ => rfl

theorem qmgrStatus_decodes : Decodes qmgrStatusParser qmgrStatusFormat := by
  refine decodes_of_writes (fun qm =>
    [fun b => { b with qmgrName := qm.qmgrName },
     fun b => { b with description := qm.description },
     fun b => { b with startDate := qm.startDate },
     fun b => { b with startTime := qm.startTime },
     fun b => { b with status := qm.status },
     fun b => { b with chinitStatus := qm.chinitStatus },
     fun b => { b with connectionCount := qm.connectionCount },
     fun b => { b with cmdServerStatus := qm.cmdServerStatus }])
    (fun _ _ => rfl) (fun _ => rfl) (fun _ => rfl) (fun _ => rfl) fun qm => ?_
  simp only [List.pairwise_cons, List.forall_mem_cons, List.not_mem_nil, List.Pairwise.nil,
    false_imp_iff, implies_true, and_true]
  and_intros <;> exact fun _ => rfl

theorem clusterQmgr_decodes : Decodes clusterQmgrParser clusterQmgrFormat := by
  refine decodes_of_writes (fun cl =>
    [fun b => { b with clusterName := cl.clusterName },
     fun b => { b with qmgrName := cl.qmgrName },
     fun b => { b with qmType := cl.qmType },
     fun b => { b with status := cl.status },
     fun b => { b with suspend := cl.suspend }])
    (fun _ h => decide_eq_true (p := _ ≠ []) h) (fun _ => rfl) (fun _ => rfl) (fun _ => rfl) fun cl => ?_
  simp only [List.pairwise_cons, List.forall_mem_cons, List.not_mem_nil, List.Pairwise.nil,
    false_imp_iff, implies_true, and_true]
  and_intros <;> exact fun _ => rfl

theorem usagePs_decodes : Decodes usagePsParser usagePsFormat := by
  refine decodes_of_writes (fun ps =>
    [fun b => { b with pagesetId := ps.pagesetId },
     fun b => { b with bufferPool := ps.bufferPool },
     fun b => { b with totalPages := ps.totalPages },
     fun b => { b with unusedPages := ps.unusedPages },
     fun b => { b with persistPages := ps.persistPages },
     fun b => { b with nonpersistPages := ps.nonpersistPages },
     fun b => { b with restartPages := ps.restartPages },
     fun b => { b with expandCount := ps.expandCount }])
    (fun _ _ => rfl) (fun _ => rfl) (fun _ => rfl) (fun _ => rfl) fun ps => ?_
  simp only [List.pairwise_cons, List.forall_mem_cons, List.not_mem_nil, List.Pairwise.nil,
    false_imp_iff, implies_true, and_true]
  and_intros <;> exact fun _ => rfl

/-! ### Buffer pools -/

/-- The record of a buffer pool. -/
def BufferPool.details (bp : BufferPool) : UsageBPDetails where
  bufferPool := bp.bufferPool
  freeBuffers := bp.freeBuffers
  totalBuffers := bp.totalBuffers
  location := bp.location

/-- The parser of buffer pools, without the page class. -/
def bufferPoolParser : StatusParser BufferPool where
  empty := {}
  integers :=
    [(1158, fun v bp => { bp with bufferPool := v }),
     (1330, fun v bp => { bp with freeBuffers := v }),
     (1166, fun v bp => { bp with totalBuffers := v }),
     (1170, fun v bp => { bp with location := v })]

theorem bufferPool_decodes : Decodes bufferPoolParser bufferPoolFormat := by
  refine decodes_of_writes (fun bp =>
    [fun b => { b with bufferPool := bp.bufferPool },
     fun b => { b with freeBuffers := bp.freeBuffers },
     fun b => { b with totalBuffers := bp.totalBuffers },
     fun b => { b with location := bp.location }])
    (fun _ _ => rfl) (fun _ => rfl) (fun _ => rfl) (fun _ => rfl) fun bp => ?_
  simp only [List.pairwise_cons, List.forall_mem_cons, List.not_mem_nil, List.Pairwise.nil,
    false_imp_iff, implies_true, and_true]
  and_intros <;> exact fun _ => rfl

/-- The page class stays as it is. -/
theorem usageBp_assign (pid : UInt32) (v : Int32) (bp : BufferPool) :
    usageBpParser.integers.assign pid v bp.details =
      (bufferPoolParser.integers.assign pid v bp).details := by
  unfold Cases.assign usageBpParser bufferPoolParser
  simp only [List.lookup_cons, List.lookup_nil]
  cases pid == 1158 <;> cases pid == 1330 <;> cases pid == 1166 <;> cases pid == 1170 <;> rfl

theorem usageBp_visit (bp : BufferPool) (p : ResponseParam) :
    usageBpParser.visit bp.details p = BufferPool.details <$> bufferPoolParser.visit bp p := by
  unfold StatusParser.visit
  split
  · rfl
  split
  · obtain ⟨v, hv⟩ := readPcfInt32_returns p
    rw [Cases.visit_of_ok _ hv, Cases.visit_of_ok _ hv, usageBp_assign]
    rfl
  split
  · rfl
  split
  · rfl
  · rfl

/-- The parser of the program does what the one without the page class does. -/
theorem parse_usageBp (responses : List Bytes) :
    parseUsageBpResponse responses =
      List.map BufferPool.details <$> bufferPoolParser.parse responses := by
  have hparams (ps : List ResponseParam) (bp : BufferPool) :
      ps.foldlM usageBpParser.visit bp.details =
        BufferPool.details <$> ps.foldlM bufferPoolParser.visit bp := by
    induction ps generalizing bp with
    | nil => rfl
    | cons p ps ih =>
        rw [List.foldlM_cons, List.foldlM_cons, usageBp_visit]
        cases bufferPoolParser.visit bp p with
        | ok bp' => exact ih bp'
        | raised e => rfl
        | undefined => rfl
        | pending => rfl
  have hentries (resp : Bytes) : usageBpParser.entries resp =
      List.map BufferPool.details <$> bufferPoolParser.entries resp := by
    unfold StatusParser.entries
    split
    · rfl
    · rw [parsePcfResponseParams_eq, parsePcfResponseParams_eq,
        show usageBpParser.empty = bufferPoolParser.empty.details from rfl, hparams]
      cases (responseParams resp).foldlM bufferPoolParser.visit bufferPoolParser.empty <;> rfl
  unfold parseUsageBpResponse
  induction responses with
  | nil => rfl
  | cons resp responses ih =>
      rw [StatusParser.parse_cons, StatusParser.parse_cons, hentries, ih]
      cases bufferPoolParser.entries resp with
      | ok bps =>
          cases bufferPoolParser.parse responses with
          | ok rest => exact congrArg Outcome.ok List.map_append.symm
          | raised e => rfl
          | undefined => rfl
          | pending => rfl
      | raised e => rfl
      | undefined => rfl
      | pending => rfl

/-! ## Error replies -/

/-- The parser makes nothing of the error replies among the responses. -/
def StatusParser.Spares {α : Type} (parser : StatusParser α) (responses : List Bytes) : Prop :=
  parser.keeps parser.empty = true → NoErrorReply responses

/-- Responses that encode records, and error replies among them, give the records. -/
theorem Decodes.parse_among {α : Type} {parser : StatusParser α} {format : StatusFormat α}
    (h : Decodes parser format) {responses : List Bytes} {replies : List (StatusReply format)}
    (hspares : parser.Spares responses)
    (hreplies : withoutErrors responses = replies.map StatusReply.encode) :
    parser.parse responses = .ok (replies.map StatusReply.record) := by
  rw [← h.parse_replies, ← hreplies]
  refine (StatusParser.parse_withoutErrors fun resp hresp herror => ?_).symm
  rw [StatusParser.entries_error herror, if_neg]
  rintro ⟨h36, hkeeps⟩
  exact (of_decide_eq_true herror).2 (hspares hkeeps resp hresp h36)

end IbmmqExporter.Pcf
