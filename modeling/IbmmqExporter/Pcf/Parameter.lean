/-
  Pcf/Parameter.lean --- the PCF constants and the parameter tree of
  `pcf_parser.h`.
-/
import IbmmqExporter.Foundation.Text

set_option autoImplicit false

namespace IbmmqExporter

open Foundation

/-- The standard exceptions that the exporter's code lets escape. -/
inductive StdException where
  /-- `std::length_error`: a string or vector is asked to be longer than it can -/
  | lengthError
  /-- `std::runtime_error` with its message -/
  | runtimeError (what : Bytes)
  deriving DecidableEq, Repr

namespace Pcf

/-! ## Constants (`namespace pcf`) -/

/-! ### Structure types -/

def mqcftInteger : Int32 := 3
def mqcftString : Int32 := 4
def mqcftIntegerList : Int32 := 5
def mqcftStringList : Int32 := 6
def mqcftGroup : Int32 := 20
def mqcftInteger64 : Int32 := 23
def mqcftInteger64List : Int32 := 25

/-! ### Commands -/

def cmdStatisticsMqi : Int32 := 164
def cmdStatisticsQ : Int32 := 165
def cmdStatisticsChannel : Int32 := 166
def cmdAccountingMqi : Int32 := 167
def cmdAccountingQ : Int32 := 168

/-! ### Parameters -/

def mqcaQName : Int32 := 2016
def mqcaQMgrName : Int32 := 2015
def mqcaChannelName : Int32 := 3501
def mqcaConnectionName : Int32 := 3502
def mqcaApplName : Int32 := 2024
def mqcacfApplName : Int32 := 3024
def mqcacfApplTag : Int32 := 3058
def mqcacfUserIdentifier : Int32 := 3025
def mqcachConnectionName : Int32 := 3506
def mqiaCurrentQDepth : Int32 := 3
def mqiaOpenInputCount : Int32 := 17
def mqiaOpenOutputCount : Int32 := 18
def mqiaHighQDepth : Int32 := 36
def mqiaMsgDeqCount : Int32 := 38
def mqiaMsgEnqCount : Int32 := 37
def mqiachMsgs : Int32 := 1534
def mqiachBytes : Int32 := 1535
def mqiachBatches : Int32 := 1537
def mqiachChannelStatus : Int32 := 1527
def mqiachChannelType : Int32 := 1511
def mqiacfProcessId : Int32 := 1024

def mqiamoOpens : Int32 := 733
def mqiamoCloses : Int32 := 709
def mqiamoPuts : Int32 := 735
def mqiamoGets : Int32 := 722
def mqiamoCommits : Int32 := 710
def mqiamoBackouts : Int32 := 704
def mqiamoBrowses : Int32 := 705
def mqiamoInqs : Int32 := 727
def mqiamoSets : Int32 := 744
def mqiamoDiscCloseTimeout : Int32 := 765
def mqiamoDiscResetTimeout : Int32 := 766
def mqiamoFails : Int32 := 767
def mqiamoIncompleteMsg : Int32 := 769
def mqiamoWaitInterval : Int32 := 770
def mqiamoSyncpointHeuristic : Int32 := 771
def mqiamoHeaps : Int32 := 772
def mqiamoLogicalConnections : Int32 := 773
def mqiamoPhysicalConnections : Int32 := 774
def mqiamoCurrentConns : Int32 := 775
def mqiamoPersistentMsgs : Int32 := 776
def mqiamoNonPersistentMsgs : Int32 := 777
def mqiamoLongMsgs : Int32 := 778
def mqiamoShortMsgs : Int32 := 779
def mqiamoQueueTime : Int32 := 781
def mqiamoQueueTimeMax : Int32 := 783
def mqiamoElapsedTime : Int32 := 784
def mqiamoElapsedTimeMax : Int32 := 785
def mqiamoConnTime : Int32 := 786
def mqiamoConnTimeMax : Int32 := 787
def mqiamoStampEnabled : Int32 := 788
def mqiamoMsgsRcvd : Int32 := 817
def mqiamoMsgsSent : Int32 := 790
def mqiamoMsgBytesRcvd : Int32 := 818
def mqiamoBytesSent : Int32 := 791
def mqiamoFullBatches : Int32 := 720
def mqiamoIncompleteBatches : Int32 := 726

/-! ## The parameter tree -/

/-- `PCFValue`: the value of a parameter, `P` being the type of parameters. -/
inductive PCFValue (P : Type) where
  /-- no value -/
  | monostate
  | int32 (v : Int32)
  | int64 (v : Int64)
  | string (s : Bytes)
  /-- `std::vector<int64_t>` -/
  | intList (vs : List Int64)
  | stringList (ss : List Bytes)
  /-- `PCFParameterList` -/
  | group (ps : List P)

/-- `PCFParameter`. -/
structure PCFParameter where
  parameter : Int32 := 0
  type : Int32 := 0
  value : PCFValue PCFParameter := .monostate

/-- `PCFHeader`. -/
structure PCFHeader where
  type : Int32
  strucLength : Int32
  version : Int32
  command : Int32
  msgSeqNumber : Int32
  control : Int32
  compCode : Int32
  reason : Int32
  parameterCount : Int32
  deriving DecidableEq, Repr

end Pcf

end IbmmqExporter
