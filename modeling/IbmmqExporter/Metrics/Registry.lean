/-
  Metrics/Registry.lean --- the registry of gauges, and the labels of their series.

  A registry holds a value for each series, which is a family with a set of labels.
  Labels are a `std::map` from names to values.  Values of type `double` are taken as
  rationals; where a 64-bit number becomes one it is rounded, and no 32-bit number is.

  THE NAMES OF LABELS.  prometheus-cpp is no part of the repository.  Its `Family::Add`
  throws on a name that it does not accept, and then the series is not written.  What is
  proved about the registry is about configurations whose metadata tags it accepts: this
  assumption is the type `LabelName` of the tags.
-/
import Mathlib.Data.Finmap
import Mathlib.Data.Rat.Defs
import IbmmqExporter.Pcf.Statistics

set_option autoImplicit false

namespace IbmmqExporter.Metrics

open Foundation Pcf

/-! ## Labels -/

/-- The rule of prometheus-cpp for the name of a label: letters, digits and underscores,
no digit at the front, and not two underscores there. -/
def validLabelName (s : String) : Bool :=
  let isFirst (c : Char) : Bool := c.isAlpha || c = '_'
  match s.toList with
  | [] => false
  | c :: cs =>
      isFirst c && cs.all (fun c => isFirst c || c.isDigit) &&
        !(c = '_' && cs.head? = some '_')

/-- The name of a label that prometheus-cpp accepts.  That a tag of the metadata is one is
an assumption on the configuration; the other names are literals of the source. -/
abbrev LabelName : Type := { s : String // validLabelName s = true }

/-- A label's name from a literal. -/
def label (s : String) (h : validLabelName s = true := by decide) : LabelName := ⟨s, h⟩

section Names

theorem validLabelName_queue_manager : validLabelName "queue_manager" = true := by decide

theorem validLabelName_platform : validLabelName "platform" = true := by decide

theorem validLabelName_application_name : validLabelName "application_name" = true := by decide

theorem validLabelName_application_tag : validLabelName "application_tag" = true := by decide

theorem validLabelName_user_identifier : validLabelName "user_identifier" = true := by decide

theorem validLabelName_channel_name : validLabelName "channel_name" = true := by decide

theorem validLabelName_connection_name : validLabelName "connection_name" = true := by decide

theorem validLabelName_userid : validLabelName "userid" = true := by decide

theorem validLabelName_pid : validLabelName "pid" = true := by decide

theorem validLabelName_channel : validLabelName "channel" = true := by decide

theorem validLabelName_appltag : validLabelName "appltag" = true := by decide

theorem validLabelName_conname : validLabelName "conname" = true := by decide

theorem validLabelName_source_ip : validLabelName "source_ip" = true := by decide

theorem validLabelName_role : validLabelName "role" = true := by decide

theorem validLabelName_open_mode : validLabelName "open_mode" = true := by decide

theorem validLabelName_handle_state : validLabelName "handle_state" = true := by decide

theorem validLabelName_process_id : validLabelName "process_id" = true := by decide

theorem validLabelName_collector_version : validLabelName "collector_version" = true := by decide

end Names

/-! The labels that the status and publication metrics share. -/

def queueManagerLabel : LabelName := label "queue_manager" validLabelName_queue_manager
def platformLabel : LabelName := label "platform" validLabelName_platform
def qmgrLabel : LabelName := label "qmgr"
def typeLabel : LabelName := label "type"

/-- `std::map<std::string, std::string>` as labels. -/
abbrev Labels : Type := Finmap fun _ : LabelName => Bytes

/-- The initializer of such a map: of two entries with one name the first stays. -/
def labels (entries : List (LabelName × Bytes)) : Labels :=
  entries.foldr (fun e ls => ls.insert e.1 e.2) ∅

@[simp] theorem lookup_labels_cons (n : LabelName) (v : Bytes)
    (entries : List (LabelName × Bytes)) (m : LabelName) :
    (labels ((n, v) :: entries)).lookup m =
      if m = n then some v else (labels entries).lookup m := by
  by_cases h : m = n
  · subst h
    rw [if_pos rfl]
    exact Finmap.lookup_insert _
  · rw [if_neg h]
    exact Finmap.lookup_insert_of_ne _ h

/-! ## Series -/

/-- The families of gauges, under the names of their fields in `MetricsCollector`;
`mqi_metrics_` has one for each number of `MQIStatistics`.  The families of publications
are registered by name: the name is what follows the prefix with `_qmgr_` or
`_queue_pub_`. -/
inductive Family where
  | queueDepth | queueHighDepth | queueEnqueue | queueDequeue
  | queueReaders | queueWriters
  | queueProcess | queueHandleInfo | queueProcessDetail
  | queueInputHandles | queueOutputHandles
  | channelMessages | channelBytes | channelBatches
  | queueAppPuts | queueAppGets | queueAppMsgsReceived | queueAppMsgsSent
  | mqiCounter (c : MqiCounter)
  | mqiTotal (t : MqiTotal)
  | collectionInfo
  | queueMaxDepth | queueOldestMsgAge | queueUncommittedMsgs
  | queueQtimeShort | queueQtimeLong | queueQfileCurrentSize | queueQfileMaxSize
  | channelStatus | channelStatusMsgs | channelBytesSent | channelBytesReceived
  | channelBuffersSent | channelBuffersReceived | channelSubstate | channelInstanceType
  | channelNettimeShort | channelNettimeLong | channelXmitqTimeShort | channelXmitqTimeLong
  | channelBatchSizeShort | channelBatchSizeLong | channelMaxInstc | channelCurInstc
  | channelStatusSquash
  | topicPubCount | topicSubCount
  | subDurable | subType | subMessageCount
  | clusterQmgrStatus | clusterQmgrSuspend
  | usageBpFree | usageBpTotal | usagePsTotal | usagePsUnused
  | lastCollectionTime
  | qmgr (name : Bytes)
  | queuePub (name : Bytes)
  deriving DecidableEq, Repr

namespace Family

/-! The families of the queue manager's status share their names with those of
publications. -/

def qmgrStatus : Family := .qmgr (ascii "status")
def qmgrConnectionCount : Family := .qmgr (ascii "connection_count")
def qmgrChinitStatus : Family := .qmgr (ascii "channel_initiator_status")
def qmgrCmdServerStatus : Family := .qmgr (ascii "command_server_status")
def qmgrUptime : Family := .qmgr (ascii "uptime")

end Family

/-- The values of the series that there are. -/
abbrev Registry : Type := Family → Labels → Option ℚ

namespace Registry

/-- `family.Add(labels).Set(v)`. -/
def set (r : Registry) (f : Family) (ls : Labels) (v : ℚ) : Registry := fun f' ls' =>
  if f' = f ∧ ls' = ls then some v else r f' ls'

/-- `family.Add(labels).Increment(v)`; a new series starts at zero. -/
def increment (r : Registry) (f : Family) (ls : Labels) (v : ℚ) : Registry := fun f' ls' =>
  if f' = f ∧ ls' = ls then some ((r f ls).getD 0 + v) else r f' ls'

@[simp] theorem set_apply (r : Registry) (f f' : Family) (ls ls' : Labels) (v : ℚ) :
    r.set f ls v f' ls' = if f' = f ∧ ls' = ls then some v else r f' ls' := rfl

theorem set_of_ne (r : Registry) {f f' : Family} (h : f' ≠ f) (ls ls' : Labels) (v : ℚ) :
    r.set f ls v f' ls' = r f' ls' := if_neg fun hf => h hf.1

end Registry

end IbmmqExporter.Metrics
