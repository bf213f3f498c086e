/-
  Mq/Mqi.lean --- the MQI calls as the exporter uses them.

  The queue manager is the list of the replies it is going to give, one for each
  call, in the order of the calls; a call for which no reply is left is still
  pending.  Every call that got a reply is recorded, with the handles it was about
  and the message it found.

  What is assumed of the queue manager is in the types and in `mqget`: a successful
  `MQOPEN` or `MQSUB` yields a handle that is not zero, and an `MQGET` without
  `MQGMO_ACCEPT_TRUNCATED_MSG` that finds a message longer than the buffer fills
  the buffer, sets `DataLength` to the length of the message, leaves the message on
  the queue and completes with a warning.
-/
import IbmmqExporter.Foundation.Effect
import IbmmqExporter.Pcf.Parameter

set_option autoImplicit false

namespace IbmmqExporter.Mq

open Foundation

/-! ## Types and constants of `cmqc.h` -/

/-- `MQHOBJ`, a handle of an object or a subscription; zero stands for none. -/
abbrev MQHOBJ : Type := Int32

/-- A handle that a successful call yields. -/
abbrev Handle : Type := { h : MQHOBJ // h ≠ 0 }

/-- A handle. -/
def firstHandle : Handle := ⟨1, by decide⟩

/-- `CompCode`. -/
inductive CompCode where
  /-- `MQCC_OK` -/
  | ok
  /-- `MQCC_WARNING` -/
  | warning
  /-- `MQCC_FAILED` -/
  | failed
  deriving DecidableEq, Repr

/-- The options with which the exporter closes a handle. -/
inductive CloseOption where
  /-- `MQCO_NONE` -/
  | none
  /-- `MQCO_DELETE_PURGE` -/
  | deletePurge
  /-- `MQCO_REMOVE_SUB` -/
  | removeSub
  deriving DecidableEq, Repr

def mqrcNoMsgAvailable : Int32 := 2033
def mqrcConnectionBroken : Int32 := 2009

def mqooInputAsQDef : Int32 := 0x00000001
def mqooInputExclusive : Int32 := 0x00000004
def mqooOutput : Int32 := 0x00000010
def mqooInquire : Int32 := 0x00000020
def mqooFailIfQuiescing : Int32 := 0x00002000

/-- The object types that the exporter opens. -/
inductive ObjectType where
  /-- `MQOT_Q` -/
  | q
  /-- `MQOT_Q_MGR` -/
  | qMgr
  deriving DecidableEq, Repr

/-- The fields of `MQOD` that the exporter sets, as they stand after
`MQOD_DEFAULT`. -/
structure MQOD where
  objectType : ObjectType := .q
  objectName : Bytes := List.replicate 48 nul
  dynamicQName : Bytes := ascii "AMQ.*" ++ List.replicate 43 nul
  deriving DecidableEq, Repr

/-- `strncpy(field, s, sizeof(field) - 1)` into a field of `n` NULs. -/
def strncpy (n : Nat) (s : Bytes) : Bytes :=
  let chars := (untilNul s).take (n - 1)
  chars ++ List.replicate (n - chars.length) nul

/-- The fields of `MQCD` that the exporter sets, as they stand after
`MQCD_CLIENT_CONN_DEFAULT`. -/
structure MQCD where
  channelName : Bytes := List.replicate 20 nul
  connectionName : Bytes := List.replicate 264 nul
  sslCipherSpec : Bytes := List.replicate 32 nul
  deriving DecidableEq, Repr

/-- The option with which the handle that an `MQOPEN` yields has to be closed: a
dynamic `EXPORTER.*` queue is deleted. -/
def MQOD.closeOption (od : MQOD) : CloseOption :=
  if od.objectType = .q ∧ (ascii "EXPORTER.").isPrefixOf od.dynamicQName then .deletePurge
  else .none

/-- The fields of `MQMD` that the exporter reads of a message. -/
structure MQMD where
  msgType : Int32 := 0
  putDate : Bytes := []
  putTime : Bytes := []
  format : Bytes := []
  msgId : Bytes := []
  deriving DecidableEq, Repr

/-! ## Replies and events -/

/-- What the queue manager answers a call: the completion and reason codes, and of
the output of the calls what the call at hand reads. -/
structure Reply where
  cc : CompCode
  rc : Int32 := 0
  /-- the handle of `MQOPEN` or `MQSUB` -/
  handle : Handle := firstHandle
  /-- the `ObjectName` field after an `MQOPEN` -/
  objectName : Bytes := []
  /-- the attributes of `MQINQ` -/
  attrs : List Int32 := []
  /-- the message an `MQGET` finds -/
  message : Bytes := []
  md : MQMD := {}
  deriving DecidableEq, Repr

/-- A call that has been answered. -/
inductive MqiEvent where
  /-- an `MQCONNX` with `cno.ClientConnPtr` -/
  | connx (clientConn : Option MQCD) (success : Bool)
  | disc
  /-- a successful `MQOPEN` -/
  | opened (od : MQOD) (options : Int32) (handle : MQHOBJ)
  /-- a successful `MQSUB` with the destination queue `dest` -/
  | subscribed (topic : Bytes) (dest : MQHOBJ) (hsub : MQHOBJ)
  | closed (handle : MQHOBJ) (option : CloseOption)
  /-- an `MQGET` into a buffer of `size` bytes that found `message` -/
  | got (handle : MQHOBJ) (size : Nat) (message : Bytes)
  /-- an `MQGET` that failed -/
  | gotNothing (handle : MQHOBJ) (rc : Int32)
  /-- an `MQPUT` of a request -/
  | put (handle : MQHOBJ) (replyToQ : Bytes) (message : Bytes)
  | inquired (handle : MQHOBJ)
  /-- an `MQOPEN` or `MQSUB` that failed -/
  | refused
  deriving DecidableEq, Repr

/-- The queue manager as the program sees it. -/
structure Mqi where
  supply : List Reply := []
  log : List MqiEvent := []
  deriving DecidableEq, Repr

/-! ## Calls -/

/-- A program that only talks to the queue manager. -/
abbrev MqiEffect (α : Type) : Type := Effect Mqi StdException α

/-- Take the next reply, record the call, and give the caller what it reads of the
reply. -/
def call {α : Type} (event : Reply → MqiEvent) (result : Reply → α) : MqiEffect α := fun m =>
  match m.supply with
  | [] => (.pending, m)
  | reply :: supply => (.ok (result reply), { supply, log := m.log ++ [event reply] })

/-- `MQCONNX`. -/
def mqconnx (clientConn : Option MQCD) : MqiEffect Reply :=
  call (fun r => .connx clientConn (decide (r.cc ≠ .failed))) id

/-- `MQDISC`. -/
def mqdisc : MqiEffect Reply := call (fun _ => .disc) id

/-- `MQOPEN`. -/
def mqopen (od : MQOD) (options : Int32) : MqiEffect Reply :=
  call (fun r => if r.cc = .failed then .refused else .opened od options r.handle) id

/-- `MQSUB` with a destination queue of the caller's. -/
def mqsub (topic : Bytes) (dest : MQHOBJ) : MqiEffect Reply :=
  call (fun r => if r.cc = .failed then .refused else .subscribed topic dest r.handle) id

/-- `MQCLOSE`. -/
def mqclose (hobj : MQHOBJ) (option : CloseOption) : MqiEffect Reply :=
  call (fun _ => .closed hobj option) id

/-- `MQINQ`. -/
def mqinq (hobj : MQHOBJ) : MqiEffect Reply := call (fun _ => .inquired hobj) id

/-- `MQPUT`. -/
def mqput (hobj : MQHOBJ) (replyToQ message : Bytes) : MqiEffect Reply :=
  call (fun _ => .put hobj replyToQ message) id

/-- The output of `MQGET`: `datalen`, and the bytes it has written at the front of
the buffer. -/
structure GetResult where
  cc : CompCode
  rc : Int32
  datalen : Nat
  written : Bytes
  md : MQMD

/-- What an `MQGET` into a buffer of `size` bytes makes of a reply. -/
def getResult (size : Nat) (r : Reply) : GetResult :=
  if r.cc = .failed then { cc := r.cc, rc := r.rc, datalen := 0, written := [], md := r.md }
  else
    { cc := if r.message.length ≤ size then r.cc else .warning, rc := r.rc,
      datalen := r.message.length, written := r.message.take size, md := r.md }

theorem getResult_failed (size : Nat) {r : Reply} (hcc : r.cc = .failed) :
    (getResult size r).cc = .failed ∧ (getResult size r).rc = r.rc := by
  unfold getResult
  rw [if_pos hcc]
  exact ⟨hcc, rfl⟩

theorem getResult_fits {size : Nat} {r : Reply} (hcc : r.cc ≠ .failed)
    (hfits : r.message.length ≤ size) :
    getResult size r =
      { cc := r.cc, rc := r.rc, datalen := r.message.length, written := r.message,
        md := r.md } := by
  unfold getResult
  rw [if_neg hcc, if_pos hfits, List.take_of_length_le hfits]

/-- The event that such an `MQGET` records. -/
def getEvent (hobj : MQHOBJ) (size : Nat) (r : Reply) : MqiEvent :=
  if r.cc = .failed then .gotNothing hobj r.rc else .got hobj size r.message

/-- `MQGET` into a buffer of `size` bytes. -/
def mqget (hobj : MQHOBJ) (size : Nat) : MqiEffect GetResult :=
  call (getEvent hobj size) (getResult size)

/-- The bytes `[buffer.begin(), buffer.begin() + datalen)` of a buffer of `size`
bytes of which the first are `written`. -/
def copyOut (size datalen : Nat) (written : Bytes) : Outcome StdException Bytes :=
  if datalen ≤ size then .ok (written.take datalen) else .undefined

theorem copyOut_fits {size datalen : Nat} {written : Bytes} (h : datalen ≤ size) :
    copyOut size datalen written = .ok (written.take datalen) := if_pos h

theorem copyOut_overruns {size datalen : Nat} {written : Bytes} (h : size < datalen) :
    copyOut size datalen written = .undefined := if_neg (Nat.not_le.mpr h)

/-- The whole message is copied. -/
theorem lift_copyOut {σ : Type} {size : Nat} {message : Bytes} (h : message.length ≤ size) :
    (Effect.lift (copyOut size message.length message) : Effect σ StdException Bytes) =
      pure message := by
  rw [copyOut_fits h, List.take_length]
  rfl

end IbmmqExporter.Mq
