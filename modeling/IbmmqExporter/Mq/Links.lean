/-
  Mq/Links.lean --- the connection that the calls are made over.

  `MQCONNX` makes a connection and `MQDISC` ends it; the other calls need one.

  WHAT THE FILE PROVES.  Which methods of the client neither make nor end a connection.
  `connected_` is false as soon as the connection is known to be broken, so a method that
  looks at the field does nothing without.
-/
import IbmmqExporter.Foundation.Transcript
import IbmmqExporter.Mq.Traffic

set_option autoImplicit false

namespace IbmmqExporter.Mq

open Foundation Effect

/-! ## The connection -/

/-- What a call makes of the connection. -/
def MqiEvent.link (linked : Bool) : MqiEvent → Bool
  | .connx _ success => linked || success
  | .disc => false
  | _ => linked

/-- There is a connection behind these calls. -/
def linkedBy (log : List MqiEvent) : Bool := log.foldl MqiEvent.link false

/-- The call may be made with a connection, or without. -/
def MqiEvent.May (linked : Bool) : MqiEvent → Prop
  | .connx _ _ => linked = false
  | _ => linked = true

/-- Each call is one that may be made with the connection that there is. -/
def Connected (log : List MqiEvent) : Prop :=
  ∀ before e behind, log = before ++ e :: behind → e.May (linkedBy before)

/-- A call over a connection, which stays. -/
def MqiEvent.isOrdinary : MqiEvent → Bool
  | .connx _ _ | .disc => false
  | _ => true

section Ordinary

variable {e : MqiEvent}

theorem MqiEvent.link_ordinary (h : e.isOrdinary = true) (linked : Bool) :
    e.link linked = linked := by
  cases e with
  | connx cd success => cases h
  | disc => cases h
  | _ => rfl

theorem MqiEvent.may_ordinary (h : e.isOrdinary = true) : e.May true := by
  cases e with
  | connx cd success => cases h
  | disc => cases h
  | _ => rfl

/-- Ordinary calls over a connection. -/
theorem obeys_ordinary {new : List MqiEvent} (hnew : ∀ e ∈ new, e.isOrdinary = true) :
    Obeys MqiEvent.link MqiEvent.May true new ∧ new.foldl MqiEvent.link true = true :=
  obeys_of_steady fun e he => ⟨MqiEvent.may_ordinary (hnew e he), e.link_ordinary (hnew e he) true⟩

end Ordinary

/-! ## Methods with ordinary calls -/

/-- The calls that have been made behind a session are ordinary. -/
abbrev Ordinarily : Session → Session → Prop :=
  Appends Session.log fun e => e.isOrdinary = true

section Methods

variable {α : Type}

theorem ordinary_call {event : Reply → MqiEvent} {result : Reply → α}
    (h : ∀ r, (event r).isOrdinary = true) : Within Ordinarily (mqi (call event result)) := by
  intro s
  refine wp_reply fun r supply => ⟨[event r], rfl, fun e he => ?_⟩
  rw [List.mem_singleton.mp he]
  exact h r

theorem ordinary_mqopen (od : MQOD) (options : Int32) :
    Within Ordinarily (mqi (mqopen od options)) := by
  refine ordinary_call fun r => ?_
  split
  · rfl
  · rfl

theorem ordinary_mqsub (topic : Bytes) (dest : MQHOBJ) :
    Within Ordinarily (mqi (mqsub topic dest)) := by
  refine ordinary_call fun r => ?_
  split
  · rfl
  · rfl

theorem ordinary_mqget (hobj : MQHOBJ) (size : Nat) :
    Within Ordinarily (mqi (mqget hobj size)) := by
  refine ordinary_call fun r => ?_
  unfold getEvent
  split
  · rfl
  · rfl

theorem ordinary_mqclose (hobj : MQHOBJ) (option : CloseOption) :
    Within Ordinarily (mqi (mqclose hobj option)) := ordinary_call fun _ => rfl

/-- A handle that is closed, and what is returned then. -/
theorem ordinary_discard (hobj : MQHOBJ) (option : CloseOption) (a : α) :
    Within Ordinarily (do
      let _ ← mqi (mqclose hobj option)
      return a) := (ordinary_mqclose hobj option).bind fun _ => within_pure a

theorem ordinary_closeWhen (hobj : MQHOBJ) (option : CloseOption) :
    Within Ordinarily (when (hobj ≠ 0) do let _ ← mqi (mqclose hobj option)) :=
  within_when (ordinary_discard hobj option ())

theorem ordinary_update (f : MQClient → MQClient) : Within Ordinarily (update f) :=
  within_modify fun s => ⟨[], (List.append_nil s.log).symm, fun _ he => absurd he List.not_mem_nil⟩

theorem ordinary_openQueue (queueName : Bytes) (options : Int32) :
    Within Ordinarily (openQueue queueName options) :=
  (ordinary_mqopen _ _).bind fun _ => within_ite (within_raise _) (within_pure _)

theorem ordinary_openDynamicQueue (queueName : Bytes) (options : Int32) (dynamicQName : Bytes) :
    Within Ordinarily (openDynamicQueue queueName options dynamicQName) :=
  (ordinary_mqopen _ _).bind fun _ => within_ite (within_raise _) (within_pure _)

theorem ordinary_attempted {c : Method α} (hc : Within Ordinarily c) :
    Within Ordinarily (tryCatch (some <$> c) fun _ => return none) :=
  (hc.map some).tryCatch fun _ => within_pure none

theorem ordinary_detectPlatform : Within Ordinarily detectPlatform := by
  refine (ordinary_mqopen _ _).bind fun r => within_ite (ordinary_update _) ?_
  refine (ordinary_call fun _ => rfl).bind fun inq => (ordinary_mqclose _ _).bind fun _ => ?_
  exact within_ite (ordinary_update _) (ordinary_update _)

/-- A queue that is opened and kept. -/
theorem ordinary_opening (queueName what : Bytes) (f : MQHOBJ → MQClient → MQClient) :
    Within Ordinarily (do
      let connected ← client MQClient.connected
      if ¬ connected then throwRuntimeError what
      else
        let hobj ← openQueue queueName (mqooInputAsQDef ||| mqooFailIfQuiescing)
        update (f hobj)) := by
  refine (within_gets _).bind fun connected => within_ite (within_raise _) ?_
  exact (ordinary_openQueue _ _).bind fun hobj => ordinary_update _

theorem ordinary_getMessageFrom (hobj : MQHOBJ) (queueType : QueueType) :
    Within Ordinarily (getMessageFrom hobj queueType) := by
  refine (ordinary_mqget _ _).bind fun r => within_ite ?_ ?_
  · refine within_ite (within_pure none) (within_ite ?_ (within_raise _))
    exact (ordinary_update _).bind fun _ => within_raise _
  · exact (within_lift _).bind fun data => within_pure _

theorem ordinary_inquireQueue (queueName : Bytes) :
    Within Ordinarily (inquireQueue queueName) := by
  refine (within_gets _).bind fun connected => within_ite (within_pure _) ?_
  refine (ordinary_attempted (ordinary_openQueue _ _)).bind fun hobj => ?_
  cases hobj with
  | none => exact within_pure none
  | some hobj =>
      refine (ordinary_call fun _ => rfl).bind fun r => ?_
      exact (ordinary_closeWhen hobj .none).bind fun _ => within_pure _

theorem ordinary_getQueueInfo (queueName : Bytes) :
    Within Ordinarily (getQueueInfo queueName) := by
  refine (ordinary_inquireQueue queueName).bind fun r => ?_
  cases r with
  | none => exact within_pure none
  | some r => exact within_ite (within_pure _) (within_pure _)

theorem ordinary_readResponses (hobj : MQHOBJ) (n : Nat) (responses : List Bytes) :
    Within Ordinarily (readResponses hobj n responses) := by
  induction n generalizing responses with
  | zero => exact within_pure responses
  | succ n ih =>
      refine (ordinary_mqget _ _).bind fun r => within_ite (within_pure _) ?_
      exact (within_lift _).bind fun response => within_ite (within_pure _) (ih _)

theorem ordinary_sendPcfCommand (cmd : Bytes) : Within Ordinarily (sendPcfCommand cmd) := by
  refine (within_gets _).bind fun connected => within_ite (within_pure _) ?_
  refine (ordinary_attempted (ordinary_openDynamicQueue _ _ _)).bind fun reply => ?_
  rcases reply with _ | ⟨replyHobj, replyName⟩
  · exact within_pure []
  · refine within_ite (ordinary_discard _ _ _) ?_
    refine (ordinary_attempted (ordinary_openQueue _ _)).bind fun queue => ?_
    cases queue with
    | none => exact ordinary_discard _ _ _
    | some cmdHobj =>
        refine (ordinary_call fun _ => rfl).bind fun put => ?_
        refine (ordinary_closeWhen cmdHobj .none).bind fun _ =>
          within_ite (ordinary_discard _ _ _) ?_
        exact (ordinary_readResponses replyHobj 1000 []).bind fun responses =>
          ordinary_discard _ _ responses

theorem ordinary_closeSubscription (sub : SubHandle) :
    Within Ordinarily (closeSubscription sub) :=
  (ordinary_closeWhen sub.hsub .removeSub).bind fun _ => ordinary_closeWhen sub.hobj .deletePurge

theorem ordinary_createSubscription (topic : Bytes) :
    Within Ordinarily (createSubscription topic) := by
  refine (within_gets _).bind fun connected => within_ite (within_pure _) ?_
  refine (ordinary_attempted (ordinary_openDynamicQueue _ _ _)).bind fun dest => ?_
  rcases dest with _ | ⟨outHobj, _⟩
  · exact within_pure none
  · refine (ordinary_mqsub _ _).bind fun sub => within_ite (ordinary_discard _ _ _) ?_
    exact within_pure _

theorem ordinary_subscribeToTopic (topic : Bytes) :
    Within Ordinarily (subscribeToTopic topic) := by
  refine (within_gets _).bind fun connected => within_ite (within_pure _) ?_
  refine (ordinary_attempted (ordinary_openDynamicQueue _ _ _)).bind fun dest => ?_
  rcases dest with _ | ⟨destHobj, _⟩
  · exact within_pure false
  · refine (ordinary_mqsub _ _).bind fun sub => within_ite (ordinary_discard _ _ _) ?_
    exact (ordinary_update _).bind fun _ => within_pure true

theorem ordinary_subscribeAndGet (topic : Bytes) :
    Within Ordinarily (subscribeAndGet topic) := by
  refine (within_gets _).bind fun connected => within_ite (within_pure _) ?_
  refine (ordinary_attempted (ordinary_openDynamicQueue _ _ _)).bind fun dest => ?_
  rcases dest with _ | ⟨destHobj, _⟩
  · exact within_pure none
  · refine (ordinary_mqsub _ _).bind fun sub => within_ite (ordinary_discard _ _ _) ?_
    refine (ordinary_mqget _ _).bind fun r => (ordinary_closeWhen _ _).bind fun _ => ?_
    refine (ordinary_closeWhen _ _).bind fun _ => within_ite (within_pure none) ?_
    exact (within_lift _).bind fun data => within_pure _

theorem ordinary_readPublications (hobj : MQHOBJ) (n : Nat) (messages : List MQMessage) :
    Within Ordinarily (readPublications hobj n messages) := by
  induction n generalizing messages with
  | zero => exact within_pure messages
  | succ n ih =>
      refine (ordinary_mqget _ _).bind fun r => within_ite (within_pure _) ?_
      exact (within_lift _).bind fun data => ih _

theorem ordinary_getMessagesFromHandle (hobj : MQHOBJ) (maxMessages : Nat) :
    Within Ordinarily (getMessagesFromHandle hobj maxMessages) :=
  (within_gets _).bind fun _ =>
    within_ite (within_pure _) (ordinary_readPublications hobj maxMessages [])

end Methods

/-! ## Methods that look at the connection -/

/-- Without a connection the method does nothing. -/
def Idle {α : Type} (c : Method α) : Prop :=
  ∀ s : Session, s.client.connected = false → (c s).2 = s

section Idle

variable {α β : Type}

theorem idle_pure (a : α) : Idle (pure a : Method α) := fun _ _ => rfl

theorem idle_raise (what : Bytes) : Idle (throwRuntimeError what : Method α) := fun _ _ => rfl

/-- What stands behind the guard may be anything. -/
theorem idle_guarded {a c : Method α} (ha : Idle a) :
    Idle (do
      let connected ← client MQClient.connected
      if ¬ connected then a
      else c) := by
  intro s hs
  show ((if ¬ s.client.connected = true then a else c) s).2 = s
  rw [if_pos (Bool.eq_false_iff.mp hs)]
  exact ha s hs

theorem Idle.bind {c : Method α} {d : α → Method β} (hc : Idle c) (hd : ∀ a, Idle (d a)) :
    Idle (c >>= d) := by
  intro s hs
  have hsame := hc s hs
  rw [bind_apply]
  rcases hrun : c s with ⟨outcome, s'⟩
  rw [hrun] at hsame
  obtain rfl : s' = s := hsame
  cases outcome with
  | ok a => exact hd a s' hs
  | raised e => rfl
  | undefined => rfl
  | pending => rfl

theorem idle_getQueueInfo (queueName : Bytes) : Idle (getQueueInfo queueName) := by
  refine Idle.bind (idle_guarded (idle_pure none)) fun r => ?_
  cases r with
  | none => exact idle_pure none
  | some r =>
      intro s _
      dsimp only
      split
      · rfl
      · rfl

theorem idle_sendPcfCommand (cmd : Bytes) : Idle (sendPcfCommand cmd) :=
  idle_guarded (idle_pure [])

theorem idle_createSubscription (topic : Bytes) : Idle (createSubscription topic) :=
  idle_guarded (idle_pure none)

/-- A subscription is made over a connection. -/
theorem createSubscription_down {s : Session} (h : s.client.connected = false) (topic : Bytes) :
    createSubscription topic s = (.ok none, s) := by
  show (if ¬ s.client.connected = true then _ else _ : Method _) s = _
  rw [if_pos (Bool.eq_false_iff.mp h)]
  rfl

theorem idle_subscribeToTopic (topic : Bytes) : Idle (subscribeToTopic topic) :=
  idle_guarded (idle_pure false)

theorem idle_subscribeAndGet (topic : Bytes) : Idle (subscribeAndGet topic) :=
  idle_guarded (idle_pure none)

theorem idle_getMessagesFromHandle (hobj : MQHOBJ) (maxMessages : Nat) :
    Idle (getMessagesFromHandle hobj maxMessages) := by
  intro s hs
  show ((if ¬ s.client.connected = true ∨ hobj = 0 then _ else _ : Method _) s).2 = s
  rw [if_pos (Or.inl (Bool.eq_false_iff.mp hs))]
  rfl

end Idle

end IbmmqExporter.Mq
