/-
  Mq/Buffers.lean --- the bytes that are copied out of the receive buffers.

  An `MQGET` that finds a message longer than its buffer completes with a warning,
  and none of the five places that copy `DataLength` bytes looks for it.
-/
import IbmmqExporter.Foundation.Recorder
import IbmmqExporter.Mq.Client

set_option autoImplicit false

namespace IbmmqExporter.Mq

open Foundation

/-- An `MQGET` that found a message longer than its buffer. -/
def MqiEvent.Oversize : MqiEvent → Prop
  | .got _ size message => size < message.length
  | _ => False

/-- A method stays defined as long as no message is longer than the buffer. -/
abbrev Guarded {α : Type} (c : Method α) : Prop :=
  Effect.Watches Session.log MqiEvent.Oversize c

/-- A method that does not return any more. -/
abbrev Overrun {α : Type} (c : Method α) : Prop := Effect.Overruns Session.log c

/-! ## The calls -/

/-- A call that is not an `MQGET`. -/
theorem guarded_call {α : Type} {event : Reply → MqiEvent} {result : Reply → α}
    (h : ∀ r, ¬ (event r).Oversize) : Guarded (mqi (call event result)) := by
  intro s
  rcases hs : s.mqi.supply with _ | ⟨reply, supply⟩
  · rw [mqi_call_nil hs]
    exact ⟨[], (List.append_nil _).symm, trivial⟩
  · rw [mqi_call_cons hs]
    refine ⟨[event reply], rfl, ?_⟩
    intro e he
    rw [List.mem_singleton.mp he]
    exact h reply

theorem guarded_mqopen (od : MQOD) (options : Int32) : Guarded (mqi (mqopen od options)) := by
  apply guarded_call
  intro r
  split <;> exact not_false

theorem guarded_mqsub (topic : Bytes) (dest : MQHOBJ) : Guarded (mqi (mqsub topic dest)) := by
  apply guarded_call
  intro r
  split <;> exact not_false

theorem guarded_mqclose (hobj : MQHOBJ) (option : CloseOption) :
    Guarded (mqi (mqclose hobj option)) :=
  guarded_call fun _ => not_false

theorem guarded_mqput (hobj : MQHOBJ) (replyToQ message : Bytes) :
    Guarded (mqi (mqput hobj replyToQ message)) :=
  guarded_call fun _ => not_false

theorem guarded_client {α : Type} (f : MQClient → α) : Guarded (client f) :=
  Effect.watches_gets _

theorem guarded_update (f : MQClient → MQClient) : Guarded (update f) :=
  Effect.watches_modify fun _ => rfl

theorem oversize_getEvent {hobj : MQHOBJ} {size : Nat} {r : Reply} :
    (getEvent hobj size r).Oversize ↔ size < (getResult size r).datalen := by
  unfold getEvent getResult
  split
  · exact iff_of_false not_false (Nat.not_lt_zero size)
  · exact Iff.rfl

/-- A call that has failed reports no data. -/
theorem cc_ne_failed_of_oversize {size : Nat} {r : Reply}
    (h : size < (getResult size r).datalen) : (getResult size r).cc ≠ .failed := by
  unfold getResult at h ⊢
  split at h
  · exact absurd h (Nat.not_lt_zero size)
  · next hcc =>
      rw [if_neg hcc]
      dsimp only
      split
      · exact hcc
      · intro hfailed
        cases hfailed

/-- An `MQGET` and what is made of it: guarded where the message fits, and undefined
where it does not. -/
theorem guarded_mqget {β : Type} {hobj : MQHOBJ} {size : Nat} {k : GetResult → Method β}
    (hfit : ∀ r : GetResult, r.datalen ≤ size → Guarded (k r))
    (hover : ∀ r : GetResult, r.cc ≠ .failed → size < r.datalen → Overrun (k r)) :
    Guarded (mqi (mqget hobj size) >>= k) := by
  intro s
  unfold mqget
  rcases hs : s.mqi.supply with _ | ⟨reply, supply⟩
  · rw [Effect.bind_of_pending (mqi_call_nil hs)]
    exact ⟨[], (List.append_nil _).symm, trivial⟩
  rw [Effect.bind_of_ok (mqi_call_cons hs)]
  by_cases hsize : (getResult size reply).datalen ≤ size
  · obtain ⟨new, hlog, hsound⟩ := hfit _ hsize (s.answered (getEvent hobj size reply) supply)
    refine ⟨getEvent hobj size reply :: new, ?_, ?_⟩
    · rw [hlog]
      exact List.append_assoc ..
    · refine @Effect.Sound.append _ _ _ _ [getEvent hobj size reply] _ _ ?_ hsound
      intro e he
      rw [List.mem_singleton.mp he, oversize_getEvent]
      exact Nat.not_lt.mpr hsize
  · have hlt : size < (getResult size reply).datalen := Nat.lt_of_not_le hsize
    obtain ⟨new, hlog, hout⟩ := hover _ (cc_ne_failed_of_oversize hlt) hlt
      (s.answered (getEvent hobj size reply) supply)
    refine ⟨getEvent hobj size reply :: new, ?_, ?_⟩
    · rw [hlog]
      exact List.append_assoc ..
    · rcases hout with hout | hout
      · rw [hout]
        exact ⟨_, List.mem_cons_self, oversize_getEvent.mpr hlt⟩
      · rw [hout]
        trivial

theorem guarded_closeWhen (hobj : MQHOBJ) (option : CloseOption) :
    Guarded (Effect.when (hobj ≠ 0) do let _ ← mqi (mqclose hobj option)) :=
  Effect.watches_when ((guarded_mqclose _ _).bind fun _ => Effect.watches_pure _)

/-- A close before the copy does not help. -/
theorem overrun_closeWhen {β : Type} {hobj : MQHOBJ} {option : CloseOption}
    {k : Unit → Method β} (hk : ∀ u, Overrun (k u)) :
    Overrun ((Effect.when (hobj ≠ 0) do let _ ← mqi (mqclose hobj option)) >>= k) := by
  unfold Effect.when
  split
  · intro s
    rw [bind_assoc]
    unfold mqclose
    rcases hs : s.mqi.supply with _ | ⟨reply, supply⟩
    · rw [Effect.bind_of_pending (mqi_call_nil hs)]
      exact ⟨[], (List.append_nil _).symm, Or.inr rfl⟩
    · rw [Effect.bind_of_ok (mqi_call_cons hs), pure_bind]
      obtain ⟨new, hlog, hout⟩ := hk () (s.answered (.closed hobj option) supply)
      exact ⟨.closed hobj option :: new, hlog.trans (List.append_assoc ..), hout⟩
  · rw [pure_bind]
    exact hk ()

/-- The copy of a message that fits, and what is made of it. -/
theorem guarded_copyOut {β : Type} {size datalen : Nat} {written : Bytes}
    {k : Bytes → Method β} (h : datalen ≤ size) (hk : ∀ data, Guarded (k data)) :
    Guarded (Effect.lift (copyOut size datalen written) >>= k) := by
  rw [copyOut_fits h]
  exact (Effect.watches_lift fun h => by cases h).bind hk

theorem overrun_copyOut {β : Type} {size datalen : Nat} {written : Bytes}
    {k : Bytes → Method β} (h : size < datalen) :
    Overrun (Effect.lift (copyOut size datalen written) >>= k) := by
  rw [copyOut_overruns h]
  exact Effect.overruns_lift_bind

/-! ## The methods -/

theorem guarded_openQueue (queueName : Bytes) (options : Int32) :
    Guarded (openQueue queueName options) := by
  refine (guarded_mqopen _ _).bind fun r => ?_
  refine Effect.watches_ite (fun _ => ?_) fun _ => ?_
  · exact Effect.watches_raise _
  · exact Effect.watches_pure _

theorem guarded_openDynamicQueue (queueName : Bytes) (options : Int32) (dynamicQName : Bytes) :
    Guarded (openDynamicQueue queueName options dynamicQName) := by
  refine (guarded_mqopen _ _).bind fun r => ?_
  refine Effect.watches_ite (fun _ => ?_) fun _ => ?_
  · exact Effect.watches_raise _
  · exact Effect.watches_pure _

theorem guarded_closeQueue (hobj : MQHOBJ) : Guarded (closeQueue hobj) :=
  guarded_closeWhen hobj .none

theorem guarded_getMessageFrom (hobj : MQHOBJ) (queueType : QueueType) :
    Guarded (getMessageFrom hobj queueType) := by
  refine guarded_mqget (fun r hfit => ?_) fun r hcc hover => ?_
  · refine Effect.watches_ite (fun _ => ?_) fun _ => ?_
    · refine Effect.watches_ite (fun _ => Effect.watches_pure _) fun _ => ?_
      refine Effect.watches_ite (fun _ => ?_) fun _ => Effect.watches_raise _
      exact (guarded_update _).bind fun _ => Effect.watches_raise _
    · exact guarded_copyOut hfit fun _ => Effect.watches_pure _
  · rw [if_neg hcc]
    exact overrun_copyOut hover

theorem guarded_getMessage (queueType : QueueType) : Guarded (getMessage queueType) := by
  refine (guarded_client _).bind fun c => ?_
  cases queueType with
  | stats =>
      exact Effect.watches_ite (fun _ => Effect.watches_pure _) fun _ =>
        guarded_getMessageFrom _ _
  | accounting =>
      exact Effect.watches_ite (fun _ => Effect.watches_pure _) fun _ =>
        guarded_getMessageFrom _ _

/-- The reply loop, by induction on the turns that are left. -/
theorem guarded_readResponses (replyHobj : MQHOBJ) (n : Nat) (responses : List Bytes) :
    Guarded (readResponses replyHobj n responses) := by
  induction n generalizing responses with
  | zero => exact Effect.watches_pure _
  | succ n ih =>
      refine guarded_mqget (fun r hfit => ?_) fun r hcc hover => ?_
      · refine Effect.watches_ite (fun _ => Effect.watches_pure _) fun _ => ?_
        refine guarded_copyOut hfit fun data => ?_
        exact Effect.watches_ite (fun _ => Effect.watches_pure _) fun _ => ih _
      · rw [if_neg hcc]
        exact overrun_copyOut hover

/-- The publication loop, by induction on the messages that may still be read. -/
theorem guarded_readPublications (hobj : MQHOBJ) (n : Nat) (messages : List MQMessage) :
    Guarded (readPublications hobj n messages) := by
  induction n generalizing messages with
  | zero => exact Effect.watches_pure _
  | succ n ih =>
      refine guarded_mqget (fun r hfit => ?_) fun r hcc hover => ?_
      · refine Effect.watches_ite (fun _ => Effect.watches_pure _) fun _ => ?_
        exact guarded_copyOut hfit fun data => ih _
      · rw [if_neg (not_or.mpr ⟨hcc, (Nat.zero_lt_of_lt hover).ne'⟩)]
        exact overrun_copyOut hover

theorem guarded_receiveFrom (subs : List SubHandle) (messages : List MQMessage) :
    Guarded (receiveFrom subs messages) := by
  induction subs generalizing messages with
  | nil => exact Effect.watches_pure _
  | cons sub subs ih => exact (guarded_readPublications _ _ _).bind fun _ => ih _

theorem guarded_receivePublications : Guarded receivePublications := by
  refine (guarded_client _).bind fun c => ?_
  exact Effect.watches_ite (fun _ => Effect.watches_pure _) fun _ => guarded_receiveFrom _ _

/-- An `open_queue` whose exception is turned into "none". -/
theorem guarded_attempt {α β : Type} {c : Method α} (hc : Guarded c) (f : α → β) (b : β) :
    Guarded (Effect.tryCatch (f <$> c) fun _ => pure b) :=
  (hc.map f).tryCatch fun _ => Effect.watches_pure b

theorem guarded_sendPcfCommand (cmd : Bytes) : Guarded (sendPcfCommand cmd) := by
  refine (guarded_client _).bind fun connected => ?_
  refine Effect.watches_ite (fun _ => Effect.watches_pure _) fun _ => ?_
  refine (guarded_attempt (guarded_openDynamicQueue _ _ _) _ _).bind fun reply => ?_
  rcases reply with _ | ⟨replyHobj, replyName⟩
  · exact Effect.watches_pure _
  have hclose (responses : List Bytes) :
      Guarded (mqi (mqclose replyHobj .deletePurge) >>= fun _ => pure responses) :=
    (guarded_mqclose _ _).bind fun _ => Effect.watches_pure _
  refine Effect.watches_ite (fun _ => hclose _) fun _ => ?_
  refine (guarded_attempt (guarded_openQueue _ _) _ _).bind fun queue => ?_
  rcases queue with _ | cmdHobj
  · exact hclose _
  refine (guarded_mqput _ _ _).bind fun put => ?_
  refine (guarded_closeQueue _).bind fun _ => ?_
  refine Effect.watches_ite (fun _ => hclose _) fun _ => ?_
  exact (guarded_readResponses _ _ _).bind fun _ => hclose _

theorem guarded_subscribeAndGet (topicString : Bytes) :
    Guarded (subscribeAndGet topicString) := by
  refine (guarded_client _).bind fun connected => ?_
  refine Effect.watches_ite (fun _ => Effect.watches_pure _) fun _ => ?_
  refine (guarded_attempt (guarded_openDynamicQueue _ _ _) _ _).bind fun dest => ?_
  rcases dest with _ | ⟨destHobj, destName⟩
  · exact Effect.watches_pure _
  refine (guarded_mqsub _ _).bind fun sub => ?_
  refine Effect.watches_ite (fun _ => ?_) fun _ => ?_
  · exact (guarded_mqclose _ _).bind fun _ => Effect.watches_pure _
  -- the subscription and the queue are closed between the `MQGET` and the copy
  refine guarded_mqget (fun r hfit => ?_) fun r hcc hover => ?_
  · refine (guarded_closeWhen _ _).bind fun _ => (guarded_closeWhen _ _).bind fun _ => ?_
    refine Effect.watches_ite (fun _ => Effect.watches_pure _) fun _ => ?_
    exact guarded_copyOut hfit fun _ => Effect.watches_pure _
  · refine overrun_closeWhen fun _ => overrun_closeWhen fun _ => ?_
    rw [if_neg (not_or.mpr ⟨hcc, (Nat.zero_lt_of_lt hover).ne'⟩)]
    exact overrun_copyOut hover

theorem guarded_getMessagesFromHandle (hobj : MQHOBJ) (maxMessages : Nat) :
    Guarded (getMessagesFromHandle hobj maxMessages) := by
  refine (guarded_client _).bind fun connected => ?_
  exact Effect.watches_ite (fun _ => Effect.watches_pure _) fun _ =>
    guarded_readPublications _ _ _

/-! ## The places that copy -/

/-- The five methods that copy out of a receive buffer, with their arguments. -/
inductive GetSite where
  | getMessage (queueType : QueueType)
  | sendPcfCommand (cmd : Bytes)
  | receivePublications
  | subscribeAndGet (topicString : Bytes)
  | getMessagesFromHandle (hobj : MQHOBJ) (maxMessages : Nat)
  deriving DecidableEq, Repr

/-- The method, but for what it returns. -/
def GetSite.run : GetSite → Method Unit
  | .getMessage queueType => do let _ ← Mq.getMessage queueType
  | .sendPcfCommand cmd => do let _ ← Mq.sendPcfCommand cmd
  | .receivePublications => do let _ ← Mq.receivePublications
  | .subscribeAndGet topicString => do let _ ← Mq.subscribeAndGet topicString
  | .getMessagesFromHandle hobj maxMessages => do
      let _ ← Mq.getMessagesFromHandle hobj maxMessages

theorem GetSite.guarded (site : GetSite) : Guarded site.run := by
  have hrest {α : Type} {c : Method α} (hc : Guarded c) : Guarded (do let _ ← c) :=
    hc.bind fun _ => Effect.watches_pure _
  cases site with
  | getMessage queueType => exact hrest (guarded_getMessage queueType)
  | sendPcfCommand cmd => exact hrest (guarded_sendPcfCommand cmd)
  | receivePublications => exact hrest guarded_receivePublications
  | subscribeAndGet topicString => exact hrest (guarded_subscribeAndGet topicString)
  | getMessagesFromHandle hobj maxMessages =>
      exact hrest (guarded_getMessagesFromHandle hobj maxMessages)

/-- A call of one of the five methods that ends has copied no byte from behind its
buffer if and only if none of the messages that its `MQGET`s have found is longer than
the buffer. -/
theorem GetSite.copies_inside_iff (site : GetSite) (s : Session)
    (hend : (site.run s).1 ≠ .pending) :
    (site.run s).1 ≠ .undefined ↔
      ∀ e ∈ Effect.recorded Session.log site.run s, ¬ e.Oversize :=
  site.guarded.defined_iff hend

/-- A read of a short message from a handle. -/
theorem GetSite.copies_inside_iff_short :
    (GetSite.run (.getMessagesFromHandle 5 500)
        { client := { connected := true },
          mqi := { supply := [{ cc := .ok, message := [1, 2, 3] }, { cc := .failed }] } }).1 ≠
      .undefined ↔
    ∀ e ∈ Effect.recorded Session.log (GetSite.run (.getMessagesFromHandle 5 500))
        { client := { connected := true },
          mqi := { supply := [{ cc := .ok, message := [1, 2, 3] }, { cc := .failed }] } },
      ¬ e.Oversize :=
  GetSite.copies_inside_iff _ _ (by decide)

/-- A statistics message of one byte more than the 100 KiB of the buffer. -/
def longMessage : Reply := { cc := .ok, message := List.replicate (100 * 1024 + 1) 0 }

theorem longMessage_datalen : 100 * 1024 < (getResult (100 * 1024) longMessage).datalen := by
  have hlen : (getResult (100 * 1024) longMessage).datalen = longMessage.message.length := rfl
  rw [hlen]
  unfold longMessage
  rw [List.length_replicate]
  exact Nat.lt_succ_self _

/-- A client with an open statistics queue. -/
def statsSession (supply : List Reply) : Session :=
  { client := { connected := true, statsOpen := true, statsQueue := 7 }, mqi := { supply } }

/-- What `get_message` does with a message that is too long. -/
theorem getMessage_too_long {r : Reply} (h : 100 * 1024 < (getResult (100 * 1024) r).datalen) :
    Mq.getMessage .stats (statsSession [r]) =
      (.undefined, (statsSession [r]).answered (getEvent 7 (100 * 1024) r) []) := by
  show getMessageFrom 7 .stats (statsSession [r]) = _
  unfold getMessageFrom mqget
  rw [Effect.bind_of_ok (mqi_call_cons rfl), if_neg (cc_ne_failed_of_oversize h),
    copyOut_overruns h]
  exact Effect.bind_of_undefined rfl

/-- `get_message` copies `longMessage` from behind its buffer. -/
theorem getMessage_longMessage_undefined :
    ¬ ∀ (site : GetSite) (s : Session), (site.run s).1 ≠ .undefined := by
  intro h
  refine h (.getMessage .stats) (statsSession [longMessage]) ?_
  show ((Mq.getMessage .stats >>= fun _ => pure ()) (statsSession [longMessage])).1 = _
  rw [Effect.bind_of_undefined (getMessage_too_long longMessage_datalen)]

end IbmmqExporter.Mq
