/-
  Mq/Client.lean --- `MQClient` of `mqclient.cpp`.

  The methods are programs on a `Session`: the queue manager's side and the fields
  of the client.  What goes to the log and the texts of the messages a method
  writes there are left out; the exceptions and their texts are kept.
-/
import IbmmqExporter.Configuration.Config
import IbmmqExporter.Mq.Mqi

set_option autoImplicit false

namespace IbmmqExporter.Mq

open Foundation

/-! ## The client's state -/

/-- `MQClient::SubHandle`. -/
structure SubHandle where
  hobj : MQHOBJ
  hsub : MQHOBJ
  deriving DecidableEq, Repr

/-- `MQMessage`. -/
structure MQMessage where
  data : Bytes
  type : Bytes
  putDate : Bytes := []
  putTime : Bytes := []
  msgType : Int32 := 0
  format : Bytes := []
  msgId : Bytes := []
  deriving DecidableEq, Repr

/-- The fields of `MQClient`.  The client has one connection, so `hconn_` is left
out. -/
structure MQClient where
  config : Configuration.MQConfig := {}
  statsQueue : MQHOBJ := 0
  acctQueue : MQHOBJ := 0
  connected : Bool := false
  statsOpen : Bool := false
  acctOpen : Bool := false
  platform : Int32 := 0
  subscriptions : List SubHandle := []
  deriving DecidableEq, Repr

/-- The client and the queue manager. -/
structure Session where
  mqi : Mqi := {}
  client : MQClient := {}
  deriving DecidableEq, Repr

/-- A method of `MQClient`. -/
abbrev Method (α : Type) : Type := Effect Session StdException α

/-- An MQI call of a method. -/
def mqi {α : Type} (c : MqiEffect α) : Method α :=
  Effect.zoom Session.mqi (fun m s => { s with mqi := m }) c

/-- The calls that have been answered. -/
def Session.log (s : Session) : List MqiEvent := s.mqi.log

/-- The session behind a call that has been answered. -/
def Session.answered (s : Session) (event : MqiEvent) (supply : List Reply) : Session :=
  { s with mqi := { supply, log := s.mqi.log ++ [event] } }

@[simp] theorem Session.answered_log (s : Session) (event : MqiEvent) (supply : List Reply) :
    (s.answered event supply).log = s.log ++ [event] := rfl

@[simp] theorem Session.answered_client (s : Session) (event : MqiEvent)
    (supply : List Reply) : (s.answered event supply).client = s.client := rfl

theorem mqi_call_nil {α : Type} {event : Reply → MqiEvent} {result : Reply → α}
    {s : Session} (h : s.mqi.supply = []) : mqi (call event result) s = (.pending, s) := by
  unfold mqi
  rw [Effect.zoom_apply]
  unfold call
  rw [h]

theorem mqi_call_cons {α : Type} {event : Reply → MqiEvent} {result : Reply → α}
    {s : Session} {reply : Reply} {supply : List Reply} (h : s.mqi.supply = reply :: supply) :
    mqi (call event result) s = (.ok (result reply), s.answered (event reply) supply) := by
  unfold mqi
  rw [Effect.zoom_apply]
  unfold call
  rw [h]
  rfl

/-- Read a field of the client. -/
def client {α : Type} (f : MQClient → α) : Method α := Effect.gets fun s => f s.client

theorem client_bind {α β : Type} (f : MQClient → α) (k : α → Method β) (s : Session) :
    (client f >>= k) s = k (f s.client) s := rfl

/-- Assign fields of the client. -/
def update (f : MQClient → MQClient) : Method Unit :=
  Effect.modify fun s => { s with client := f s.client }

/-- `throw std::runtime_error(what)`. -/
def throwRuntimeError {α : Type} (what : Bytes) : Method α :=
  Effect.raise (.runtimeError what)

/-! ## Platforms -/

namespace Platform

def zos : Int32 := 1
def unix : Int32 := 3
def os400 : Int32 := 4
def windows : Int32 := 5
def windowsNt : Int32 := 11
def nsk : Int32 := 13
def appliance : Int32 := 28

/-- `platform::local_platform`, on the platforms that are none of Windows, z/OS and
OS/400. -/
def localPlatform : Int32 := unix

/-- `platform::platform_name`. -/
def platformName (id : Int32) : Bytes :=
  if id = windows then ascii "windows"
  else if id = windowsNt then ascii "windows"
  else if id = unix then ascii "unix"
  else if id = zos then ascii "zos"
  else if id = os400 then ascii "os400"
  else if id = nsk then ascii "nsk"
  else if id = appliance then ascii "appliance"
  else ascii "unknown"

end Platform

/-- `MQClient::get_platform_string`. -/
def MQClient.platformString (c : MQClient) : Bytes := Platform.platformName c.platform

/-! ## Connecting -/

/-- `MQClient::detect_platform`. -/
def detectPlatform : Method Unit := do
  let r ← mqi (mqopen { objectType := .qMgr } mqooInquire)
  if r.cc = .failed then update fun c => { c with platform := Platform.localPlatform }
  else
    let inq ← mqi (mqinq r.handle)
    let _ ← mqi (mqclose r.handle .none)
    if 0 < inq.attrs.getD 0 0 then update fun c => { c with platform := inq.attrs.getD 0 0 }
    else update fun c => { c with platform := Platform.localPlatform }

/-- `cno.ClientConnPtr` in `MQClient::connect`; there is none in binding mode. -/
def clientConn (config : Configuration.MQConfig) : Option MQCD :=
  if config.isClientMode then
    let cd : MQCD :=
      { channelName := strncpy 20 config.channel
        connectionName := strncpy 264 config.getConnectionName }
    if config.cipherSpec ≠ [] then
      some { cd with sslCipherSpec := strncpy 32 config.cipherSpec }
    else some cd
  else none

/-- `MQClient::connect`. -/
def connect : Method Unit := do
  let connected ← client MQClient.connected
  if connected then return
  else
    let config ← client MQClient.config
    let r ← mqi (mqconnx (clientConn config))
    if r.cc = .failed then
      throwRuntimeError (ascii "Failed to connect to queue manager " ++ config.queueManager ++
        ascii " (RC=" ++ decimal r.rc ++ ascii ")")
    else
      update fun c => { c with connected := true }
      detectPlatform

/-- `MQClient::unsubscribe_all`. -/
def unsubscribeAll : Method Unit := do
  let subscriptions ← client MQClient.subscriptions
  Effect.forEach subscriptions fun sub => do
    Effect.when (sub.hsub ≠ 0) do
      let _ ← mqi (mqclose sub.hsub .removeSub)
    Effect.when (sub.hobj ≠ 0) do
      let _ ← mqi (mqclose sub.hobj .deletePurge)
  update fun c => { c with subscriptions := [] }

/-- `MQClient::close_queue`; the caller's handle becomes zero. -/
def closeQueue (hobj : MQHOBJ) : Method Unit := do
  Effect.when (hobj ≠ 0) do
    let _ ← mqi (mqclose hobj .none)

/-- `MQClient::disconnect`. -/
def disconnect : Method Unit := do
  let c ← client id
  if ¬ c.connected ∧ c.subscriptions = [] ∧ ¬ c.statsOpen ∧ ¬ c.acctOpen then return
  else
    unsubscribeAll
    Effect.when c.statsOpen do
      closeQueue c.statsQueue
      update fun c => { c with statsQueue := 0 }
    Effect.when c.acctOpen do
      closeQueue c.acctQueue
      update fun c => { c with acctQueue := 0 }
    let _ ← mqi mqdisc
    update fun c => { c with connected := false, statsOpen := false, acctOpen := false }

/-! ## Queues -/

/-- `MQClient::open_queue(queue_name, options)`. -/
def openQueue (queueName : Bytes) (options : Int32) : Method MQHOBJ := do
  let od : MQOD :=
    { objectType := .q, objectName := strncpy 48 queueName,
      dynamicQName := List.replicate 48 blank }
  let r ← mqi (mqopen od options)
  if r.cc = .failed then
    throwRuntimeError (ascii "Failed to open queue " ++ queueName ++ ascii " (RC=" ++
      decimal r.rc ++ ascii ")")
  else return r.handle

/-- `MQClient::open_queue(queue_name, options, dynamic_q_name, resolved_name)`; it
returns the handle and the resolved name.  `" \0"` is a C string, so only blanks are
trimmed. -/
def openDynamicQueue (queueName : Bytes) (options : Int32) (dynamicQName : Bytes) :
    Method (MQHOBJ × Bytes) := do
  let od : MQOD :=
    { objectType := .q, objectName := strncpy 48 queueName,
      dynamicQName := strncpy 48 dynamicQName }
  let r ← mqi (mqopen od options)
  if r.cc = .failed then
    throwRuntimeError (ascii "Failed to open dynamic queue from " ++ queueName ++
      ascii " (RC=" ++ decimal r.rc ++ ascii ")")
  else
    let resolved := trimBlanks r.objectName
    return (r.handle, if resolved = [] then r.objectName else resolved)

section Open

variable {γ : Type} {f : Session → γ}
  (hopen : ∀ od options, Effect.Preserves f (mqi (mqopen od options)))
include hopen

/-- What an `MQOPEN` keeps, `open_queue` keeps. -/
theorem preserves_openQueue_of (queueName : Bytes) (options : Int32) :
    Effect.Preserves f (openQueue queueName options) := by
  refine (hopen _ options).bind fun r => ?_
  exact Effect.preserves_ite (Effect.preserves_raise _) (Effect.preserves_pure _)

theorem preserves_openDynamicQueue_of (queueName : Bytes) (options : Int32)
    (dynamicQName : Bytes) :
    Effect.Preserves f (openDynamicQueue queueName options dynamicQName) := by
  refine (hopen _ options).bind fun r => ?_
  exact Effect.preserves_ite (Effect.preserves_raise _) (Effect.preserves_pure _)

end Open

/-- An `MQOPEN` of a queue that succeeds. -/
theorem openQueue_records (queueName : Bytes) (options : Int32) {s : Session} {r : Reply}
    {supply : List Reply} (hs : s.mqi.supply = r :: supply) (hcc : r.cc ≠ .failed) :
    ∃ event, openQueue queueName options s = (.ok r.handle.1, s.answered event supply) := by
  unfold openQueue mqopen
  rw [Effect.bind_of_ok (mqi_call_cons hs)]
  simp only [id, if_neg hcc]
  exact ⟨_, rfl⟩

theorem openQueue_answered (queueName : Bytes) (options : Int32) {s : Session} {r : Reply}
    {supply : List Reply} (hs : s.mqi.supply = r :: supply) (hcc : r.cc ≠ .failed) :
    ∃ s', openQueue queueName options s = (.ok r.handle.1, s') ∧ s'.client = s.client ∧
      s'.mqi.supply = supply := by
  obtain ⟨event, hopen⟩ := openQueue_records queueName options hs hcc
  exact ⟨_, hopen, rfl, rfl⟩

/-- An `MQOPEN` of the model queue that succeeds. -/
theorem openDynamicQueue_records (queueName : Bytes) (options : Int32) (dynamicQName : Bytes)
    {s : Session} {r : Reply} {supply : List Reply} (hs : s.mqi.supply = r :: supply)
    (hcc : r.cc ≠ .failed) (hnamed : trimBlanks r.objectName ≠ []) :
    ∃ event, openDynamicQueue queueName options dynamicQName s =
      (.ok (r.handle.1, trimBlanks r.objectName), s.answered event supply) := by
  unfold openDynamicQueue mqopen
  dsimp only
  rw [Effect.bind_of_ok (mqi_call_cons hs)]
  simp only [id, if_neg hcc, if_neg hnamed]
  exact ⟨_, rfl⟩

theorem openDynamicQueue_answered (queueName : Bytes) (options : Int32) (dynamicQName : Bytes)
    {s : Session} {r : Reply} {supply : List Reply} (hs : s.mqi.supply = r :: supply)
    (hcc : r.cc ≠ .failed) (hnamed : trimBlanks r.objectName ≠ []) :
    ∃ s', openDynamicQueue queueName options dynamicQName s =
        (.ok (r.handle.1, trimBlanks r.objectName), s') ∧ s'.client = s.client ∧
      s'.mqi.supply = supply := by
  obtain ⟨event, hopen⟩ := openDynamicQueue_records queueName options dynamicQName hs hcc hnamed
  exact ⟨_, hopen, rfl, rfl⟩

/-- `MQClient::open_stats_queue`. -/
def openStatsQueue (queueName : Bytes) : Method Unit := do
  let connected ← client MQClient.connected
  if ¬ connected then throwRuntimeError (ascii "Not connected to queue manager")
  else
    let hobj ← openQueue queueName (mqooInputAsQDef ||| mqooFailIfQuiescing)
    update fun c => { c with statsQueue := hobj, statsOpen := true }

/-- `MQClient::open_accounting_queue`. -/
def openAccountingQueue (queueName : Bytes) : Method Unit := do
  let connected ← client MQClient.connected
  if ¬ connected then throwRuntimeError (ascii "Not connected to queue manager")
  else
    let hobj ← openQueue queueName (mqooInputAsQDef ||| mqooFailIfQuiescing)
    update fun c => { c with acctQueue := hobj, acctOpen := true }

/-- The queue types of `get_message`. -/
inductive QueueType where
  | stats
  | accounting
  deriving DecidableEq, Repr

/-- The queue type as the text that is passed around. -/
def QueueType.text : QueueType → Bytes
  | .stats => ascii "stats"
  | .accounting => ascii "accounting"

/-- `MQClient::get_message` behind the choice of the queue: the `MQGET`, and what is
made of its result. -/
def getMessageFrom (hobj : MQHOBJ) (queueType : QueueType) : Method (Option MQMessage) := do
  let size := 100 * 1024
  let r ← mqi (mqget hobj size)
  if r.cc = .failed then
    if r.rc = mqrcNoMsgAvailable then return none
    else if r.rc = mqrcConnectionBroken then
      update fun c => { c with connected := false }
      throwRuntimeError (ascii "Connection broken (RC=2009)")
    else
      throwRuntimeError (ascii "Failed to get message from " ++ queueType.text ++
        ascii " queue (RC=" ++ decimal r.rc ++ ascii ")")
  else
    let data ← Effect.lift (copyOut size r.datalen r.written)
    return some
      { data, type := queueType.text, msgType := r.md.msgType, putDate := r.md.putDate,
        putTime := r.md.putTime, format := r.md.format, msgId := r.md.msgId }

/-- `MQClient::get_message`. -/
def getMessage (queueType : QueueType) : Method (Option MQMessage) := do
  let c ← client id
  match queueType with
  | .stats => if ¬ c.statsOpen then return none else getMessageFrom c.statsQueue .stats
  | .accounting =>
      if ¬ c.acctOpen then return none else getMessageFrom c.acctQueue .accounting

/-- The loop of `get_all_messages`, for at most `fuel` turns. -/
def drain (queueType : QueueType) : Nat → List MQMessage → Method (List MQMessage)
  | 0, _ => Effect.lift .pending
  | fuel + 1, messages => do
      let msg ← getMessage queueType
      match msg with
      | none => return messages
      | some msg => drain queueType fuel (messages ++ [msg])

/-- `MQClient::get_all_messages`.  Every turn but the last takes a reply from the
queue manager, so the turns are as many as the replies that are left, and one. -/
def getAllMessages (queueType : QueueType) : Method (List MQMessage) := fun s =>
  drain queueType (s.mqi.supply.length + 1) [] s

/-! ## Inquiries -/

/-- `QueueStats`. -/
structure QueueStats where
  queueName : Bytes
  currentDepth : Int32
  openInputCount : Int32
  openOutputCount : Int32
  deriving DecidableEq, Repr

/-- `QueueInfo`. -/
structure QueueInfo where
  queueName : Bytes
  currentDepth : Int32
  openInputCount : Int32
  openOutputCount : Int32
  maxQueueDepth : Int32
  deriving DecidableEq, Repr

/-- The part that `get_queue_stats`, `get_queue_info` and `get_queue_handles` share:
open the queue for inquiry, inquire, and close it. -/
def inquireQueue (queueName : Bytes) : Method (Option Reply) := do
  let connected ← client MQClient.connected
  if ¬ connected then return none
  else
    let hobj ← Effect.tryCatch (some <$> openQueue queueName mqooInquire) fun _ => return none
    match hobj with
    | none => return none
    | some hobj =>
        let r ← mqi (mqinq hobj)
        closeQueue hobj
        return some r

/-- `MQClient::get_queue_stats`. -/
def getQueueStats (queueName : Bytes) : Method (Option QueueStats) := do
  let r ← inquireQueue queueName
  match r with
  | none => return none
  | some r =>
      if r.cc = .failed then return none
      else
        return some
          { queueName, currentDepth := r.attrs.getD 0 0, openInputCount := r.attrs.getD 1 0,
            openOutputCount := r.attrs.getD 2 0 }

/-- `MQClient::get_queue_info`. -/
def getQueueInfo (queueName : Bytes) : Method (Option QueueInfo) := do
  let r ← inquireQueue queueName
  match r with
  | none => return none
  | some r =>
      if r.cc = .failed then return none
      else
        return some
          { queueName, currentDepth := r.attrs.getD 0 0, openInputCount := r.attrs.getD 1 0,
            openOutputCount := r.attrs.getD 2 0, maxQueueDepth := r.attrs.getD 3 0 }

/-- `HandleInfo`. -/
structure HandleInfo where
  applicationName : Bytes := []
  applicationTag : Bytes := []
  processId : Int32 := 0
  userIdentifier : Bytes := []
  channelName : Bytes := []
  connectionName : Bytes := []
  handleState : Bytes := []
  openMode : Bytes := []
  queueName : Bytes := []
  inputHandleCount : Int32 := 0
  outputHandleCount : Int32 := 0
  deriving DecidableEq, Repr

/-- `MQClient::get_queue_handles`; it inquires and reports no handle. -/
def getQueueHandles (queueName : Bytes) : Method (List HandleInfo) := do
  let _ ← inquireQueue queueName
  return []

/-! ## PCF commands -/

/-- The loop of `send_pcf_command` that reads the replies, for at most `n` more
turns. -/
def readResponses (replyHobj : MQHOBJ) : Nat → List Bytes → Method (List Bytes)
  | 0, responses => return responses
  | n + 1, responses => do
      let size := 64 * 1024
      let r ← mqi (mqget replyHobj size)
      if r.cc = .failed then return responses
      else
        let response ← Effect.lift (copyOut size r.datalen r.written)
        -- the last response says so in its Control field
        if 24 ≤ r.datalen ∧ uint32At r.written 20 = 1 then return responses ++ [response]
        else readResponses replyHobj n (responses ++ [response])

/-- The loop keeps what its `MQGET` keeps. -/
theorem preserves_readResponses_of {γ : Type} {f : Session → γ} {replyHobj : MQHOBJ}
    (hget : Effect.Preserves f (mqi (mqget replyHobj (64 * 1024)))) (n : Nat)
    (responses : List Bytes) : Effect.Preserves f (readResponses replyHobj n responses) := by
  induction n generalizing responses with
  | zero => exact Effect.preserves_pure responses
  | succ n ih =>
      refine hget.bind fun r => Effect.preserves_ite (Effect.preserves_pure _) ?_
      refine (Effect.preserves_lift _).bind fun response => ?_
      exact Effect.preserves_ite (Effect.preserves_pure _) (ih _)

/-- `MQClient::send_pcf_command`. -/
def sendPcfCommand (cmd : Bytes) : Method (List Bytes) := do
  let connected ← client MQClient.connected
  if ¬ connected then return []
  else
    let reply ← Effect.tryCatch
      (some <$> openDynamicQueue (ascii "SYSTEM.DEFAULT.MODEL.QUEUE") mqooInputExclusive
        (ascii "EXPORTER.*"))
      fun _ => return none
    match reply with
    | none => return []
    | some (replyHobj, replyName) =>
        if replyName = [] ∨ replyName = ascii "SYSTEM.DEFAULT.MODEL.QUEUE" then
          let _ ← mqi (mqclose replyHobj .deletePurge)
          return []
        else
          let queue ← Effect.tryCatch
            (some <$> openQueue (ascii "SYSTEM.ADMIN.COMMAND.QUEUE") mqooOutput)
            fun _ => return none
          match queue with
          | none =>
              let _ ← mqi (mqclose replyHobj .deletePurge)
              return []
          | some cmdHobj =>
              let put ← mqi (mqput cmdHobj (strncpy 48 replyName) cmd)
              closeQueue cmdHobj
              if put.cc = .failed then
                let _ ← mqi (mqclose replyHobj .deletePurge)
                return []
              else
                let responses ← readResponses replyHobj 1000 []
                let _ ← mqi (mqclose replyHobj .deletePurge)
                return responses

/-! ## Subscriptions -/

/-- `strip_mqrfh2`. -/
def stripMqrfh2 (msg : MQMessage) : MQMessage :=
  if msg.data.length < 16 then msg
  else if msg.data.take 4 ≠ ascii "RFH " then msg
  else
    let strucLength := intAt msg.data 8
    if strucLength < 36 ∨ msg.data.length ≤ strucLength.toNat then msg
    else
      { msg with
        data := msg.data.drop strucLength.toNat
        format := (msg.data.drop 20).take 8 }

/-- The message that the publication loops make of the bytes they copied. -/
def publication (data : Bytes) (md : MQMD) : MQMessage :=
  stripMqrfh2 { data, type := ascii "publication", msgType := md.msgType, format := md.format }

/-- `MQClient::subscribe_to_topic`. -/
def subscribeToTopic (topicString : Bytes) : Method Bool := do
  let connected ← client MQClient.connected
  if ¬ connected then return false
  else
    let dest ← Effect.tryCatch
      (some <$> openDynamicQueue (ascii "SYSTEM.DEFAULT.MODEL.QUEUE") mqooInputExclusive
        (ascii "EXPORTER.PUB.*"))
      fun _ => return none
    match dest with
    | none => return false
    | some (destHobj, _) =>
        let sub ← mqi (mqsub topicString destHobj)
        if sub.cc = .failed then
          let _ ← mqi (mqclose destHobj .deletePurge)
          return false
        else
          update fun c =>
            { c with subscriptions := c.subscriptions ++ [⟨destHobj, sub.handle⟩] }
          return true

/-- The loop that reads publications from a queue, for at most `n` more messages: in
`receive_publications` and in `get_messages_from_handle`. -/
def readPublications (hobj : MQHOBJ) : Nat → List MQMessage → Method (List MQMessage)
  | 0, messages => return messages
  | n + 1, messages => do
      let size := 64 * 1024
      let r ← mqi (mqget hobj size)
      if r.cc = .failed ∨ r.datalen = 0 then return messages
      else
        let data ← Effect.lift (copyOut size r.datalen r.written)
        readPublications hobj n (messages ++ [publication data r.md])

/-- The loop of `receive_publications` over the subscriptions. -/
def receiveFrom : List SubHandle → List MQMessage → Method (List MQMessage)
  | [], messages => return messages
  | sub :: subs, messages => do
      let messages ← readPublications sub.hobj 500 messages
      receiveFrom subs messages

/-- `MQClient::receive_publications`. -/
def receivePublications : Method (List MQMessage) := do
  let c ← client id
  if ¬ c.connected then return []
  else receiveFrom c.subscriptions []

/-- `MQClient::subscribe_and_get`. -/
def subscribeAndGet (topicString : Bytes) : Method (Option MQMessage) := do
  let connected ← client MQClient.connected
  if ¬ connected then return none
  else
    let dest ← Effect.tryCatch
      (some <$> openDynamicQueue (ascii "SYSTEM.DEFAULT.MODEL.QUEUE") mqooInputExclusive
        (ascii "EXPORTER.SUB.*"))
      fun _ => return none
    match dest with
    | none => return none
    | some (destHobj, _) =>
        let sub ← mqi (mqsub topicString destHobj)
        if sub.cc = .failed then
          let _ ← mqi (mqclose destHobj .deletePurge)
          return none
        else
          let size := 64 * 1024
          let r ← mqi (mqget destHobj size)
          let hsub : MQHOBJ := sub.handle
          Effect.when (hsub ≠ 0) do
            let _ ← mqi (mqclose hsub .removeSub)
          Effect.when (destHobj ≠ 0) do
            let _ ← mqi (mqclose destHobj .deletePurge)
          if r.cc = .failed ∨ r.datalen = 0 then return none
          else
            let data ← Effect.lift (copyOut size r.datalen r.written)
            return some (publication data r.md)

/-- `MQClient::create_subscription`; it returns the handles `out_hobj` and `out_hsub`
when it succeeds. -/
def createSubscription (topicString : Bytes) : Method (Option SubHandle) := do
  let connected ← client MQClient.connected
  if ¬ connected then return none
  else
    let dest ← Effect.tryCatch
      (some <$> openDynamicQueue (ascii "SYSTEM.DEFAULT.MODEL.QUEUE") mqooInputExclusive
        (ascii "EXPORTER.PUB.*"))
      fun _ => return none
    match dest with
    | none => return none
    | some (outHobj, _) =>
        let sub ← mqi (mqsub topicString outHobj)
        if sub.cc = .failed then
          let _ ← mqi (mqclose outHobj .deletePurge)
          return none
        else return some ⟨outHobj, sub.handle⟩

/-- `MQClient::get_messages_from_handle`. -/
def getMessagesFromHandle (hobj : MQHOBJ) (maxMessages : Nat) : Method (List MQMessage) := do
  let connected ← client MQClient.connected
  if ¬ connected ∨ hobj = 0 then return []
  else readPublications hobj maxMessages []

/-- `MQClient::close_subscription`; the caller's handles become zero. -/
def closeSubscription (sub : SubHandle) : Method Unit := do
  Effect.when (sub.hsub ≠ 0) do
    let _ ← mqi (mqclose sub.hsub .removeSub)
  Effect.when (sub.hobj ≠ 0) do
    let _ ← mqi (mqclose sub.hobj .deletePurge)

end IbmmqExporter.Mq
