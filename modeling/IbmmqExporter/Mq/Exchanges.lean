/-
  Mq/Exchanges.lean --- the conversation with the queue manager.

  The methods of the client call the queue manager in fixed orders: a queue is opened,
  asked about and closed; a command is put to the command queue, which is closed again
  before the replies are read from a queue that is deleted behind them.  Each of these
  orders is an `Exchange`.

  WHAT THE FILE PROVES.  Whatever the queue manager answers, a method of the client that
  returns or throws has made the calls of whole exchanges, which close what they open, or
  those that open or close what is kept.  In an exchange each call is one that what is
  open allows: what is put asks and changes nothing, what is read is open to be read, and
  what is deleted is the exporter's own.
-/
import IbmmqExporter.Foundation.Transcript
import IbmmqExporter.Mq.Discovery

set_option autoImplicit false

namespace IbmmqExporter.Mq

open Foundation Effect Pcf

/-! ## The exchanges -/

/-- A queue, as `open_queue` names it. -/
def queueObject (queueName : Bytes) : MQOD :=
  { objectType := .q, objectName := strncpy 48 queueName,
    dynamicQName := List.replicate 48 blank }

/-- `SYSTEM.ADMIN.COMMAND.QUEUE`. -/
def commandQueue : MQOD := queueObject (ascii "SYSTEM.ADMIN.COMMAND.QUEUE")

/-- What a dynamic queue is made for. -/
inductive Purpose where
  /-- the replies to a command -/
  | replies
  /-- the publications of a subscription -/
  | publications
  /-- the one message of a subscription for metadata -/
  | metadata
  deriving DecidableEq, Repr

/-- The name that the queue manager is asked to complete. -/
def Purpose.dynamicQName : Purpose → Bytes
  | .replies => ascii "EXPORTER.*"
  | .publications => ascii "EXPORTER.PUB.*"
  | .metadata => ascii "EXPORTER.SUB.*"

/-- A dynamic queue, as the model queue is opened for it. -/
def dynamicObject (purpose : Purpose) : MQOD :=
  { objectType := .q, objectName := strncpy 48 (ascii "SYSTEM.DEFAULT.MODEL.QUEUE"),
    dynamicQName := strncpy 48 purpose.dynamicQName }

/-- The options with which the statistics and the accounting queue are opened. -/
def readOptions : Int32 := mqooInputAsQDef ||| mqooFailIfQuiescing

/-- The commands that ask and change nothing. -/
inductive IsInquiry : Bytes → Prop where
  | queues (pattern : Bytes) : IsInquiry (buildInquireQCmd pattern)
  | queueStatus (queueName : Bytes) : IsInquiry (buildInquireQStatusCmd queueName)
  | queueOnline (queueName : Bytes) : IsInquiry (buildInquireQStatusOnlineCmd queueName)
  | channels (pattern : Bytes) : IsInquiry (buildInquireChannelStatusCmd pattern)
  | topics (pattern : Bytes) : IsInquiry (buildInquireTopicStatusCmd pattern)
  | subs (pattern : Bytes) : IsInquiry (buildInquireSubStatusCmd pattern)
  | qmgr : IsInquiry buildInquireQmgrStatusCmd
  | clusters : IsInquiry buildInquireClusterQmgrCmd
  | usage (usageType : Int32) : IsInquiry (buildInquireUsageCmd usageType)

/-- An `MQGET` on a handle. -/
def MqiEvent.readsFrom (hobj : MQHOBJ) : MqiEvent → Bool
  | .got h _ _ => decide (h = hobj)
  | .gotNothing h _ => decide (h = hobj)
  | _ => false

/-- `MQGET`s on one handle. -/
abbrev Reads (hobj : MQHOBJ) : Type :=
  { events : List MqiEvent // ∀ e ∈ events, e.readsFrom hobj = true }

/-- A piece of the conversation, in which what is opened is closed again. -/
inductive Exchange where
  | connects (cd : Option MQCD) (success : Bool)
  | refused
  /-- the queue manager is asked for its platform -/
  | describes (hobj : Handle)
  /-- a queue is asked for its attributes -/
  | inquires (queueName : Bytes) (hobj : Handle)
  /-- a dynamic queue is deleted without a use, because of a refusal if there is one -/
  | discards (purpose : Purpose) (hobj : Handle) (denied : Bool)
  /-- a command, and the replies to it -/
  | asks (replyObj cmdObj : Handle) (replyName : Bytes) (cmd : { cmd // IsInquiry cmd })
      (gets : Reads replyObj)
  /-- a subscription for one message -/
  | glances (topic : Bytes) (hobj hsub : Handle) (gets : Reads hobj)

/-- A subscription is made, with a dynamic queue of its own. -/
def subscribing (purpose : Purpose) (topic : Bytes) (hobj hsub : MQHOBJ) : List MqiEvent :=
  [.opened (dynamicObject purpose) mqooInputExclusive hobj, .subscribed topic hobj hsub]

/-- The calls of an exchange. -/
def Exchange.events : Exchange → List MqiEvent
  | .connects cd success => [.connx cd success]
  | .refused => [.refused]
  | .describes hobj =>
      [.opened { objectType := .qMgr } mqooInquire hobj, .inquired hobj, .closed hobj .none]
  | .inquires queueName hobj =>
      [.opened (queueObject queueName) mqooInquire hobj, .inquired hobj, .closed hobj .none]
  | .discards purpose hobj denied =>
      .opened (dynamicObject purpose) mqooInputExclusive hobj ::
        ((if denied then [.refused] else []) ++ [.closed hobj .deletePurge])
  | .asks replyObj cmdObj replyName cmd gets =>
      [.opened (dynamicObject .replies) mqooInputExclusive replyObj,
       .opened commandQueue mqooOutput cmdObj,
       .put cmdObj (strncpy 48 replyName) cmd.1, .closed cmdObj .none] ++
        (gets.1 ++ [.closed replyObj .deletePurge])
  | .glances topic hobj hsub gets =>
      subscribing .metadata topic hobj hsub ++
        (gets.1 ++ [.closed hsub .removeSub, .closed hobj .deletePurge])

/-- The calls that have been made behind a session are those of exchanges. -/
abbrev Converses : Session → Session → Prop := Emits Session.log Exchange.events

/-- What is said is nothing or an exchange. -/
abbrev Speaks (new : List MqiEvent) : Prop := Spoken Exchange.events new

/-! ## Calls -/

section Calls

variable {α : Type}

/-- What a method says. -/
abbrev Tells (c : Method α) (Q : α → List MqiEvent → Prop) (F : List MqiEvent → Prop) : Prop :=
  Says Session.log c Q F

/-- A call is recorded. -/
theorem tells_call {event : Reply → MqiEvent} {result : Reply → α} {F : List MqiEvent → Prop} :
    Tells (mqi (call event result)) (fun a new => ∃ r, a = result r ∧ new = [event r]) F := by
  intro s
  unfold wp
  rcases hs : s.mqi.supply with _ | ⟨r, supply⟩
  · rw [mqi_call_nil hs]
    trivial
  · rw [mqi_call_cons hs]
    exact ⟨[event r], Session.answered_log s _ supply, r, rfl, rfl⟩

theorem tells_update {f : MQClient → MQClient} {Q : Unit → List MqiEvent → Prop}
    {F : List MqiEvent → Prop} (hQ : Q () []) : Tells (update f) Q F :=
  fun s => ⟨[], (List.append_nil s.log).symm, hQ⟩

/-- An `MQOPEN`, by its completion. -/
theorem tells_mqopen {od : MQOD} {options : Int32} {F : List MqiEvent → Prop} :
    Tells (mqi (mqopen od options)) (fun r new =>
      (r.cc = .failed ∧ new = [.refused]) ∨
        (r.cc ≠ .failed ∧ new = [.opened od options r.handle])) F := by
  refine tells_call.mono ?_ fun _ h => h
  rintro r _ ⟨_, rfl, rfl⟩
  by_cases hcc : r.cc = .failed
  · exact Or.inl ⟨hcc, by rw [if_pos hcc]⟩
  · exact Or.inr ⟨hcc, by rw [if_neg hcc]⟩

theorem tells_mqsub {topic : Bytes} {dest : MQHOBJ} {F : List MqiEvent → Prop} :
    Tells (mqi (mqsub topic dest)) (fun r new =>
      (r.cc = .failed ∧ new = [.refused]) ∨
        (r.cc ≠ .failed ∧ new = [.subscribed topic dest r.handle])) F := by
  refine tells_call.mono ?_ fun _ h => h
  rintro r _ ⟨_, rfl, rfl⟩
  by_cases hcc : r.cc = .failed
  · exact Or.inl ⟨hcc, by rw [if_pos hcc]⟩
  · exact Or.inr ⟨hcc, by rw [if_neg hcc]⟩

theorem tells_mqget {hobj : MQHOBJ} {size : Nat} {F : List MqiEvent → Prop} :
    Tells (mqi (mqget hobj size)) (fun _ new => ∃ e, new = [e] ∧ e.readsFrom hobj = true) F := by
  refine tells_call.mono ?_ fun _ h => h
  rintro _ new ⟨r, -, rfl⟩
  refine ⟨_, rfl, ?_⟩
  unfold getEvent
  split
  · exact decide_eq_true rfl
  · exact decide_eq_true rfl

/-- A call of which it is known what it records. -/
theorem tells_then {β : Type} {c : Method β} {d : β → Method α} {e : MqiEvent}
    {Q : α → List MqiEvent → Prop} {F : List MqiEvent → Prop}
    (hc : Tells c (fun _ new => new = [e]) F)
    (hd : ∀ b, Tells (d b) (fun a new => Q a (e :: new)) fun new => F (e :: new)) :
    Tells (c >>= d) Q F := by
  refine hc.bind ?_
  rintro b new rfl
  exact hd b

theorem tells_mqclose {hobj : MQHOBJ} {option : CloseOption} {F : List MqiEvent → Prop} :
    Tells (mqi (mqclose hobj option)) (fun _ new => new = [.closed hobj option]) F := by
  refine tells_call.mono ?_ fun _ h => h
  rintro _ new ⟨r, -, rfl⟩
  rfl

theorem tells_mqinq {hobj : MQHOBJ} {F : List MqiEvent → Prop} :
    Tells (mqi (mqinq hobj)) (fun _ new => new = [.inquired hobj]) F := by
  refine tells_call.mono ?_ fun _ h => h
  rintro _ new ⟨r, -, rfl⟩
  rfl

theorem tells_mqput {hobj : MQHOBJ} {replyToQ message : Bytes} {F : List MqiEvent → Prop} :
    Tells (mqi (mqput hobj replyToQ message))
      (fun _ new => new = [.put hobj replyToQ message]) F := by
  refine tells_call.mono ?_ fun _ h => h
  rintro _ new ⟨r, -, rfl⟩
  rfl

end Calls

/-! ## Methods -/

section Methods

theorem tells_openQueue {queueName : Bytes} {options : Int32} :
    Tells (openQueue queueName options)
      (fun hobj new => ∃ h : Handle, hobj = h ∧ new = [.opened (queueObject queueName) options h])
      fun new => new = [.refused] := by
  refine tells_mqopen.bind ?_
  rintro r new (⟨hcc, rfl⟩ | ⟨hcc, rfl⟩)
  · rw [if_pos hcc]
    exact says_raise rfl
  · rw [if_neg hcc]
    exact says_pure ⟨r.handle, rfl, rfl⟩

/-- A dynamic queue that is opened. -/
theorem tells_openDynamicQueue {purpose : Purpose} :
    Tells (openDynamicQueue (ascii "SYSTEM.DEFAULT.MODEL.QUEUE") mqooInputExclusive
        purpose.dynamicQName)
      (fun q new => ∃ h : Handle, q.1 = h ∧
        new = [.opened (dynamicObject purpose) mqooInputExclusive h])
      fun new => new = [.refused] := by
  refine tells_mqopen.bind ?_
  rintro r new (⟨hcc, rfl⟩ | ⟨hcc, rfl⟩)
  · rw [if_pos hcc]
    exact says_raise rfl
  · rw [if_neg hcc]
    exact says_pure ⟨r.handle, rfl, rfl⟩

/-- `if (hobj != 0) MQCLOSE(hobj, option)` on a handle. -/
theorem tells_closeWhen {hobj : Handle} {option : CloseOption} {F : List MqiEvent → Prop} :
    Tells (when (hobj.1 ≠ 0) do let _ ← mqi (mqclose hobj option))
      (fun _ new => new = [.closed hobj option]) F := by
  rw [when_pos hobj.2]
  exact tells_then tells_mqclose fun _ => says_pure rfl

/-- A method that has read to the end of its replies. -/
theorem tells_readResponses (replyObj : MQHOBJ) (n : Nat) (responses : List Bytes)
    {F : List MqiEvent → Prop} :
    Tells (readResponses replyObj n responses)
      (fun _ new => ∀ e ∈ new, e.readsFrom replyObj = true) F := by
  induction n generalizing responses F with
  | zero => exact says_pure nofun
  | succ n ih =>
      refine tells_mqget.bind ?_
      rintro r new ⟨e, rfl, he⟩
      have hone : ∀ e' ∈ [e] ++ [], e'.readsFrom replyObj = true := by simpa using he
      refine says_ite (fun _ => says_pure hone) fun _ => ?_
      unfold copyOut
      split
      · refine says_ite (fun _ => says_pure hone) fun _ => (ih _).mono ?_ fun _ h => h
        intro _ new hnew
        exact List.forall_mem_cons.mpr ⟨he, hnew⟩
      · exact fun s => trivial

theorem tells_readPublications (hobj : MQHOBJ) (n : Nat) (messages : List MQMessage)
    {F : List MqiEvent → Prop} :
    Tells (readPublications hobj n messages)
      (fun _ new => ∀ e ∈ new, e.readsFrom hobj = true) F := by
  induction n generalizing messages F with
  | zero => exact says_pure nofun
  | succ n ih =>
      refine tells_mqget.bind ?_
      rintro r new ⟨e, rfl, he⟩
      refine says_ite (fun _ => says_pure (by simpa using he)) fun _ => ?_
      unfold copyOut
      split
      · refine (ih _).mono ?_ fun _ h => h
        intro _ new hnew
        exact List.forall_mem_cons.mpr ⟨he, hnew⟩
      · exact fun s => trivial

/-- A queue is asked about, unless it cannot be opened. -/
theorem within_converses_inquireQueue (queueName : Bytes) :
    Within Converses (inquireQueue queueName) := by
  refine (within_gets _).bind fun connected => within_ite (within_pure none) (Says.within ?_)
  refine (tells_openQueue.attempt).bind ?_
  rintro _ new (⟨_, rfl, h, rfl, rfl⟩ | ⟨rfl, rfl⟩)
  · refine tells_then tells_mqinq fun r => tells_then tells_closeWhen fun _ => ?_
    exact says_pure (spoken_of_eq (.inquires queueName h) rfl)
  · exact says_pure (spoken_of_eq .refused rfl)

theorem within_converses_getQueueInfo (queueName : Bytes) :
    Within Converses (getQueueInfo queueName) := by
  refine (within_converses_inquireQueue queueName).bind fun r => ?_
  cases r with
  | none => exact within_pure none
  | some r => exact within_ite (within_pure none) (within_pure _)

/-- A dynamic queue that is deleted as soon as it has been opened. -/
theorem tells_discard {α : Type} {purpose : Purpose} {h : Handle} {a : α} (denied : Bool) :
    Tells (mqi (mqclose h.1 .deletePurge) >>= fun _ => (pure a : Method α))
      (fun _ new => Speaks (.opened (dynamicObject purpose) mqooInputExclusive h ::
        ((if denied then [.refused] else []) ++ new)))
      (fun new => Speaks (.opened (dynamicObject purpose) mqooInputExclusive h ::
        ((if denied then [.refused] else []) ++ new))) :=
  tells_then tells_mqclose fun _ => says_pure (spoken_of_eq (.discards purpose h denied) rfl)

/-- A command, and the replies to it. -/
theorem within_converses_sendPcfCommand {cmd : Bytes} (hcmd : IsInquiry cmd) :
    Within Converses (sendPcfCommand cmd) := by
  refine (within_gets _).bind fun connected => within_ite (within_pure []) (Says.within ?_)
  refine (@tells_openDynamicQueue .replies).attempt.bind ?_
  rintro _ new (⟨⟨_, replyName⟩, rfl, h, rfl, rfl⟩ | ⟨rfl, rfl⟩)
  · refine says_ite (fun _ => tells_discard false) fun _ => ?_
    refine tells_openQueue.attempt.bind ?_
    rintro _ new (⟨_, rfl, h', rfl, rfl⟩ | ⟨rfl, rfl⟩)
    · refine tells_then tells_mqput fun put => tells_then tells_closeWhen fun _ => ?_
      refine says_ite (fun _ => ?_) fun _ => (tells_readResponses _ _ _).bind ?_
      · refine tells_then tells_mqclose fun _ => says_pure ?_
        exact spoken_of_eq (.asks h h' replyName ⟨cmd, hcmd⟩ ⟨[], nofun⟩) rfl
      · intro responses new hnew
        refine tells_then tells_mqclose fun _ => says_pure ?_
        exact spoken_of_eq (.asks h h' replyName ⟨cmd, hcmd⟩ ⟨new, hnew⟩) rfl
    · exact tells_discard true
  · exact says_pure (spoken_of_eq .refused rfl)

theorem within_converses_discoverQueues (pattern : Bytes) :
    Within Converses (discoverQueues pattern) :=
  (within_converses_sendPcfCommand (.queues pattern)).bind fun _ => within_lift _

/-- A subscription with a dynamic queue, and what is done with it behind. -/
theorem tells_subscribing {α : Type} {purpose : Purpose} {topic : Bytes} {a : α}
    {k : MQHOBJ → Reply → Method α} {Q : α → List MqiEvent → Prop} {F : List MqiEvent → Prop}
    (ha : ∀ new, Speaks new → Q a new)
    (hk : ∀ (h : Handle) (sub : Reply), Tells (k h sub)
      (fun b new => Q b (subscribing purpose topic h sub.handle ++ new))
      fun new => F (subscribing purpose topic h sub.handle ++ new)) :
    Tells (do
        let dest ← tryCatch
          (some <$> openDynamicQueue (ascii "SYSTEM.DEFAULT.MODEL.QUEUE") mqooInputExclusive
            purpose.dynamicQName)
          fun _ => return none
        match dest with
        | none => return a
        | some (destHobj, _) =>
            let sub ← mqi (mqsub topic destHobj)
            if sub.cc = .failed then
              let _ ← mqi (mqclose destHobj .deletePurge)
              return a
            else k destHobj sub) Q F := by
  refine (@tells_openDynamicQueue purpose).attempt.bind ?_
  rintro _ new (⟨⟨_, name⟩, rfl, h, rfl, rfl⟩ | ⟨rfl, rfl⟩)
  · refine tells_mqsub.bind ?_
    rintro sub new (⟨hcc, rfl⟩ | ⟨hcc, rfl⟩)
    · rw [if_pos hcc]
      refine tells_then tells_mqclose fun _ => says_pure (ha _ ?_)
      exact spoken_of_eq (.discards purpose h true) rfl
    · rw [if_neg hcc]
      exact hk h sub
  · exact says_pure (ha _ (spoken_of_eq .refused rfl))

theorem within_converses_subscribeAndGet (topic : Bytes) :
    Within Converses (subscribeAndGet topic) := by
  refine (within_gets _).bind fun connected => within_ite (within_pure none) (Says.within ?_)
  refine @tells_subscribing _ .metadata topic none _ _ _ (fun _ h => h) fun h sub => ?_
  refine tells_mqget.bind ?_
  rintro r new ⟨e, rfl, he⟩
  have hspoken := @spoken_of_eq _ _ Exchange.events _
    (.glances topic h sub.handle ⟨[e], by simpa using he⟩) rfl
  refine tells_then (@tells_closeWhen sub.handle .removeSub _) fun _ => ?_
  refine tells_then (@tells_closeWhen h .deletePurge _) fun _ => ?_
  refine says_ite (fun _ => says_pure hspoken) fun _ => ?_
  refine Says.bind (Q := fun _ new => new = []) (says_lift (fun _ => rfl) hspoken) ?_
  rintro _ new rfl
  exact says_pure hspoken

theorem within_converses_update (f : MQClient → MQClient) : Within Converses (update f) :=
  Says.within (tells_update spoken_nil)

/-! ### What is kept open -/

theorem within_converses_connect : Within Converses connect := by
  have hplatform : Within Converses detectPlatform := by
    refine Says.within (tells_mqopen.bind ?_)
    rintro r new (⟨hcc, rfl⟩ | ⟨hcc, rfl⟩)
    · rw [if_pos hcc]
      exact tells_update (spoken_of_eq .refused rfl)
    · rw [if_neg hcc]
      refine tells_then tells_mqinq fun inq => tells_then tells_mqclose fun _ => ?_
      have hspoken := @spoken_of_eq _ _ Exchange.events _ (.describes r.handle) rfl
      exact says_ite (fun _ => tells_update hspoken) fun _ => tells_update hspoken
  refine (within_gets _).bind fun connected => within_ite (within_pure ()) ?_
  refine (within_gets _).bind fun config => ?_
  refine Within.bind (Says.within (tells_call.mono ?_ fun _ h => h)) fun r => within_ite ?_ ?_
  · rintro _ new ⟨r, -, rfl⟩
    exact spoken_of_eq (.connects (clientConn config) (decide (r.cc ≠ .failed))) rfl
  · exact within_raise _
  · exact (within_converses_update _).bind fun _ => hplatform

/-! ### Messages -/

theorem tells_getMessagesFromHandle (hobj : MQHOBJ) (maxMessages : Nat)
    {F : List MqiEvent → Prop} :
    Tells (getMessagesFromHandle hobj maxMessages)
      (fun _ new => ∀ e ∈ new, e.readsFrom hobj = true) F := by
  refine Says.bind (Q := fun _ new => new = []) (says_gets fun _ => rfl) ?_
  rintro connected _ rfl
  exact says_ite (fun _ => says_pure nofun) fun _ => tells_readPublications hobj maxMessages []

end Methods

/-! ## What a call needs -/

/-- What a handle is open for. -/
inductive Access where
  | inquire
  /-- to read the statistics or the accounting queue -/
  | read
  /-- to read and delete a dynamic queue -/
  | own
  | command
  | subscription
  deriving DecidableEq, Repr

/-- How a handle is closed. -/
def Access.close : Access → CloseOption
  | .own => .deletePurge
  | .subscription => .removeSub
  | _ => .none

/-- The handles that have been opened and not closed since. -/
abbrev Open : Type := Multiset (MQHOBJ × Access)

/-- The calls that may be made where some handles are open, and what is open behind them.
A queue is opened for inquiry, to be read if it is `readable` or the exporter's own, or
for output if it is the command queue; what is put is an inquiry, to this queue. -/
inductive Allowed (readable : List Bytes) : Open → MqiEvent → Open → Prop where
  | connx (now : Open) (cd : Option MQCD) (success : Bool) :
      Allowed readable now (.connx cd success) now
  | disc (now : Open) : Allowed readable now .disc now
  | refused (now : Open) : Allowed readable now .refused now
  | inquire (now : Open) (od : MQOD) (hobj : MQHOBJ) :
      Allowed readable now (.opened od mqooInquire hobj) ((hobj, .inquire) ::ₘ now)
  | read {queueName : Bytes} (now : Open) (hq : queueName ∈ readable) (hobj : MQHOBJ) :
      Allowed readable now (.opened (queueObject queueName) readOptions hobj)
        ((hobj, .read) ::ₘ now)
  | own (now : Open) (purpose : Purpose) (hobj : MQHOBJ) :
      Allowed readable now (.opened (dynamicObject purpose) mqooInputExclusive hobj)
        ((hobj, .own) ::ₘ now)
  | command (now : Open) (hobj : MQHOBJ) :
      Allowed readable now (.opened commandQueue mqooOutput hobj) ((hobj, .command) ::ₘ now)
  | inquired {now : Open} {hobj : MQHOBJ} (hopen : (hobj, .inquire) ∈ now) :
      Allowed readable now (.inquired hobj) now
  | put {now : Open} {hobj : MQHOBJ} {message : Bytes} (hopen : (hobj, .command) ∈ now)
      (replyToQ : Bytes) (hmessage : IsInquiry message) :
      Allowed readable now (.put hobj replyToQ message) now
  | reads {now : Open} {hobj : MQHOBJ} {e : MqiEvent}
      (hopen : (hobj, .read) ∈ now ∨ (hobj, .own) ∈ now) (he : e.readsFrom hobj = true) :
      Allowed readable now e now
  | subscribed {now : Open} {dest : MQHOBJ} (hopen : (dest, .own) ∈ now) (topic : Bytes)
      (hsub : MQHOBJ) :
      Allowed readable now (.subscribed topic dest hsub) ((hsub, .subscription) ::ₘ now)
  | closed (now : Open) (hobj : MQHOBJ) (access : Access) :
      Allowed readable ((hobj, access) ::ₘ now) (.closed hobj access.close) now

/-- Each call is one that what is open allows. -/
def Conducted (readable : List Bytes) (log : List MqiEvent) : Prop :=
  ∃ now, Path (Allowed readable) 0 log now

/-- What a subscription has open. -/
def SubHandle.opens (sub : SubHandle) : Open := {(sub.hsub, .subscription), (sub.hobj, .own)}

section Conduct

variable {readable : List Bytes} {now : Open} {hobj : MQHOBJ}

/-- A handle that may be read from is read from. -/
theorem path_reads {gets : List MqiEvent} (hopen : (hobj, .read) ∈ now ∨ (hobj, .own) ∈ now)
    (hgets : ∀ e ∈ gets, e.readsFrom hobj = true) : Path (Allowed readable) now gets now :=
  path_of_steady fun e he => .reads hopen (hgets e he)

/-- An object that is opened for inquiry, asked, and closed. -/
theorem path_inquiry (now : Open) (od : MQOD) (hobj : MQHOBJ) : Path (Allowed readable) now
    [.opened od mqooInquire hobj, .inquired hobj, .closed hobj .none] now :=
  .cons (.inquire now od hobj) <| .cons (.inquired (Multiset.mem_cons_self _ _)) <|
    .single (.closed now hobj .inquire)

theorem path_subscribing (now : Open) (purpose : Purpose) (topic : Bytes) (hobj hsub : MQHOBJ) :
    Path (Allowed readable) now (subscribing purpose topic hobj hsub)
      ((hsub, .subscription) ::ₘ (hobj, .own) ::ₘ now) :=
  .cons (.own now purpose hobj) <|
    .single (.subscribed (Multiset.mem_cons_self _ _) topic hsub)

/-- An exchange is allowed whatever is open, and leaves it open. -/
theorem Exchange.path_events (x : Exchange) (now : Open) :
    Path (Allowed readable) now x.events now := by
  cases x with
  | connects cd success => exact .single (.connx now cd success)
  | refused => exact .single (.refused now)
  | describes hobj => exact path_inquiry now _ hobj
  | inquires queueName hobj => exact path_inquiry now _ hobj
  | discards purpose hobj denied =>
      refine .cons (.own now purpose hobj) (Path.append ?_ (.single (.closed now hobj .own)))
      cases denied with
      | false => exact .nil _
      | true => exact .single (.refused _)
  | asks replyObj cmdObj replyName cmd gets =>
      have hown : (replyObj.1, Access.own) ∈ (replyObj.1, Access.own) ::ₘ now :=
        Multiset.mem_cons_self _ _
      have hput : Path (Allowed readable) now
          [.opened (dynamicObject .replies) mqooInputExclusive replyObj,
           .opened commandQueue mqooOutput cmdObj,
           .put cmdObj (strncpy 48 replyName) cmd.1, .closed cmdObj .none]
          ((replyObj.1, .own) ::ₘ now) :=
        .cons (.own now .replies replyObj) <| .cons (.command _ cmdObj) <|
          .cons (.put (Multiset.mem_cons_self _ _) _ cmd.2) <| .single (.closed _ cmdObj .command)
      -- behind the command the reply queue is read, and deleted
      exact hput.append ((path_reads (Or.inr hown) gets.2).append
        (.single (.closed now replyObj .own)))
  | glances topic hobj hsub gets =>
      have hown : (hobj.1, Access.own) ∈
          (hsub.1, Access.subscription) ::ₘ (hobj.1, Access.own) ::ₘ now :=
        Multiset.mem_cons_of_mem (Multiset.mem_cons_self _ _)
      refine (path_subscribing now .metadata topic hobj hsub).append ?_
      exact (path_reads (Or.inr hown) gets.2).append <|
        .cons (.closed _ hsub .subscription) (.single (.closed now hobj .own))

theorem path_exchanges (xs : List Exchange) (now : Open) :
    Path (Allowed readable) now (xs.flatMap Exchange.events) now := by
  induction xs with
  | nil => exact .nil now
  | cons x xs ih =>
      rw [List.flatMap_cons]
      exact (x.path_events now).append ih

theorem turns_spoken {new : List MqiEvent} (h : Speaks new) (a : Open) :
    Turns (Allowed readable) a new a := by
  rcases h with rfl | ⟨x, rfl⟩
  · exact turns_nil a
  · exact turns_of_path fun rest => x.path_events _

end Conduct

/-! ## What is kept and let go -/

section Kept

variable {readable : List Bytes} {F : List MqiEvent → Prop}

theorem SubHandle.opens_add (sub : SubHandle) (a : Open) :
    sub.opens + a = (sub.hsub, .subscription) ::ₘ (sub.hobj, .own) ::ₘ a := by
  rw [opens, Multiset.insert_eq_cons, Multiset.cons_add, Multiset.singleton_add]

/-- What `create_subscription` returns is what it has opened. -/
theorem tells_createSubscription (topic : Bytes) (a : Open) :
    Tells (createSubscription topic)
      (fun sub new => Turns (Allowed readable) a new
        ((sub.elim 0 fun handles => handles.opens) + a)) F := by
  have hnone {new : List MqiEvent} (h : Speaks new) : Turns (Allowed readable) a new (0 + a) := by
    rw [zero_add]
    exact turns_spoken h a
  refine Says.bind (Q := fun _ new => new = []) (says_gets fun _ => rfl) ?_
  rintro connected _ rfl
  refine says_ite (fun _ => says_pure (hnone spoken_nil)) fun _ => ?_
  refine @tells_subscribing _ .publications topic none _ _ _ (fun _ h => hnone h) fun h sub => ?_
  refine says_pure (turns_of_path fun rest => ?_)
  rw [List.nil_append, List.append_nil, Option.elim_some, add_assoc, SubHandle.opens_add]
  exact path_subscribing _ .publications topic h sub.handle

/-- A handle that is closed the way it is closed. -/
theorem tells_closing {hobj : MQHOBJ} {access : Access} (a : Open) :
    Tells (when (hobj ≠ 0) do let _ ← mqi (mqclose hobj access.close))
      (fun _ new => Turns (Allowed readable) ({(hobj, access)} + a) new a) F := by
  by_cases hobj0 : hobj ≠ 0
  · rw [when_pos hobj0]
    refine tells_then tells_mqclose fun _ => says_pure (turns_of_path fun rest => ?_)
    rw [add_assoc]
    exact .single (.closed _ hobj access)
  · rw [when_neg hobj0]
    exact says_pure ((turns_nil _).weaken (Multiset.le_add_left _ _))

theorem tells_closeSubscription (sub : SubHandle) (a : Open) :
    Tells (closeSubscription sub)
      (fun _ new => Turns (Allowed readable) (sub.opens + a) new a) F := by
  refine (@tells_closing readable _ sub.hsub .subscription ({(sub.hobj, .own)} + a)).bind ?_
  intro _ new hnew
  refine (@tells_closing readable _ sub.hobj .own a).mono (fun _ new' hnew' => ?_) fun _ h => h
  rw [SubHandle.opens_add, ← Multiset.singleton_add, ← Multiset.singleton_add]
  exact hnew.append hnew'

/-- What some subscriptions have open. -/
def opensAll (subs : List SubHandle) : Open := (subs.map SubHandle.opens).sum

theorem opensAll_cons (sub : SubHandle) (subs : List SubHandle) :
    opensAll (sub :: subs) = sub.opens + opensAll subs := List.sum_cons

theorem opensAll_append (subs subs' : List SubHandle) :
    opensAll (subs ++ subs') = opensAll subs + opensAll subs' := by
  unfold opensAll
  rw [List.map_append, List.sum_append]

theorem tells_closeAll (subs : List SubHandle) (a : Open) :
    Tells (forEach subs closeSubscription)
      (fun _ new => Turns (Allowed readable) (opensAll subs + a) new a) F := by
  induction subs generalizing F with
  | nil =>
      rw [show opensAll [] + a = a from zero_add a]
      exact says_pure (turns_nil a)
  | cons sub subs ih =>
      rw [opensAll_cons, add_assoc]
      refine (@tells_closeSubscription readable _ sub (opensAll subs + a)).bind
        fun _ new hnew => ?_
      exact ih.mono (fun _ _ hnew' => hnew.append hnew') fun _ h => h

end Kept

/-- `subscribe_to_topic` is `create_subscription`, with the handles kept. -/
theorem subscribeToTopic_eq (topic : Bytes) :
    subscribeToTopic topic = createSubscription topic >>= fun sub =>
      match sub with
      | none => return false
      | some handles => do
          update fun c => { c with subscriptions := c.subscriptions ++ [handles] }
          return true := by
  unfold subscribeToTopic createSubscription
  rw [bind_assoc]
  refine congrArg _ (funext fun connected => ?_)
  split
  · rfl
  · rw [bind_assoc]
    refine congrArg _ (funext fun dest => ?_)
    cases dest with
    | none => rfl
    | some q =>
        dsimp only
        rw [bind_assoc]
        refine congrArg _ (funext fun sub => ?_)
        split
        · rw [bind_assoc]
          rfl
        · rfl

end IbmmqExporter.Mq
