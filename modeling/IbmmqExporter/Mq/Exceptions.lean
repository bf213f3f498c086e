/-
  Mq/Exceptions.lean --- the methods of the client that do not throw.

  A method that opens a queue for a purpose of its own catches what `open_queue`
  throws, and of what it calls beside nothing throws.

  WHAT THE FILE PROVES.  The inquiries, the commands and the subscriptions do not end
  with an exception, whatever the queue manager answers.
-/
import IbmmqExporter.Mq.Discovery

set_option autoImplicit false

namespace IbmmqExporter.Mq

open Foundation Effect

section Methods

variable {α : Type}

theorem neverRaises_call (event : Reply → MqiEvent) (result : Reply → α) :
    NeverRaises (call event result) := by
  intro m e
  unfold call
  split
  · exact nofun
  · exact nofun

theorem neverRaises_mqi {c : MqiEffect α} (hc : NeverRaises c) : NeverRaises (mqi c) := hc.zoom

theorem neverRaises_mqclose (hobj : MQHOBJ) (option : CloseOption) :
    NeverRaises (mqi (mqclose hobj option)) := neverRaises_mqi (neverRaises_call _ _)

theorem neverRaises_close (hobj : MQHOBJ) (option : CloseOption) :
    NeverRaises (do
      let _ ← mqi (mqclose hobj option)) :=
  (neverRaises_mqclose hobj option).bind fun _ => neverRaises_pure ()

theorem neverRaises_closeQueue (hobj : MQHOBJ) : NeverRaises (closeQueue hobj) :=
  neverRaises_when (neverRaises_close hobj .none)

theorem neverRaises_closeSubscription (sub : SubHandle) :
    NeverRaises (closeSubscription sub) :=
  (neverRaises_when (neverRaises_close _ _)).bind fun _ => neverRaises_when (neverRaises_close _ _)

/-- A call of a queue manager's object in a `try`. -/
theorem neverRaises_attempt (c : Method α) :
    NeverRaises (tryCatch (some <$> c) fun _ => return none) :=
  neverRaises_tryCatch _ fun _ => neverRaises_pure none

/-- What the buffers of the client copy is not an exception. -/
theorem copyOut_ne_raised (size datalen : Nat) (written : Bytes) (e : StdException) :
    copyOut size datalen written ≠ .raised e := by
  unfold copyOut
  split
  · exact nofun
  · exact nofun

/-! ## Commands -/

theorem neverRaises_inquireQueue (queueName : Bytes) : NeverRaises (inquireQueue queueName) := by
  refine (neverRaises_gets _).bind fun connected => ?_
  refine neverRaises_ite (neverRaises_pure none) ?_
  refine (neverRaises_attempt _).bind fun hobj => ?_
  cases hobj with
  | none => exact neverRaises_pure none
  | some hobj =>
      refine (neverRaises_mqi (neverRaises_call _ _)).bind fun r => ?_
      exact (neverRaises_closeQueue hobj).bind fun _ => neverRaises_pure _

theorem neverRaises_getQueueInfo (queueName : Bytes) : NeverRaises (getQueueInfo queueName) := by
  refine (neverRaises_inquireQueue queueName).bind fun r => ?_
  cases r with
  | none => exact neverRaises_pure none
  | some r => exact neverRaises_ite (neverRaises_pure none) (neverRaises_pure _)

theorem neverRaises_readResponses (hobj : MQHOBJ) (n : Nat) (responses : List Bytes) :
    NeverRaises (readResponses hobj n responses) := by
  induction n generalizing responses with
  | zero => exact neverRaises_pure responses
  | succ n ih =>
      refine (neverRaises_mqi (neverRaises_call _ _)).bind fun r => ?_
      refine neverRaises_ite (neverRaises_pure responses) ?_
      refine (neverRaises_lift (copyOut_ne_raised _ _ _)).bind fun response => ?_
      exact neverRaises_ite (neverRaises_pure _) (ih _)

theorem neverRaises_sendPcfCommand (cmd : Bytes) : NeverRaises (sendPcfCommand cmd) := by
  refine (neverRaises_gets _).bind fun connected => ?_
  refine neverRaises_ite (neverRaises_pure []) ?_
  refine (neverRaises_attempt _).bind fun reply => ?_
  rcases reply with _ | ⟨replyHobj, replyName⟩
  · exact neverRaises_pure []
  have hclose (responses : List Bytes) : NeverRaises (do
      let _ ← mqi (mqclose replyHobj .deletePurge)
      return responses : Method (List Bytes)) :=
    (neverRaises_mqclose replyHobj .deletePurge).bind fun _ => neverRaises_pure responses
  refine neverRaises_ite (hclose []) ?_
  refine (neverRaises_attempt _).bind fun queue => ?_
  cases queue with
  | none => exact hclose []
  | some cmdHobj =>
      refine (neverRaises_mqi (neverRaises_call _ _)).bind fun put => ?_
      refine (neverRaises_closeQueue cmdHobj).bind fun _ => ?_
      refine neverRaises_ite (hclose []) ?_
      exact (neverRaises_readResponses replyHobj 1000 []).bind hclose

/-- Something that returns is not an exception. -/
theorem ne_raised_of_returns {x : Outcome StdException α} (h : x.Returns) (e : StdException) :
    x ≠ .raised e := by
  obtain ⟨a, ha⟩ := h
  rw [ha]
  exact nofun

theorem neverRaises_discoverQueues (pattern : Bytes) : NeverRaises (discoverQueues pattern) := by
  refine (neverRaises_sendPcfCommand _).bind fun responses => ?_
  exact neverRaises_lift (ne_raised_of_returns (discoverResponses_returns responses))

/-! ## Subscriptions -/

theorem neverRaises_subscribeToTopic (topicString : Bytes) :
    NeverRaises (subscribeToTopic topicString) := by
  refine (neverRaises_gets _).bind fun connected => ?_
  refine neverRaises_ite (neverRaises_pure false) ?_
  refine (neverRaises_attempt _).bind fun dest => ?_
  rcases dest with _ | ⟨destHobj, name⟩
  · exact neverRaises_pure false
  refine (neverRaises_mqi (neverRaises_call _ _)).bind fun sub => ?_
  refine neverRaises_ite ?_ ?_
  · exact (neverRaises_mqclose _ _).bind fun _ => neverRaises_pure false
  · exact (neverRaises_modify _).bind fun _ => neverRaises_pure true

end Methods

end IbmmqExporter.Mq
