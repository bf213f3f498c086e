/-
  Mq/Harm.lean --- the messages that do harm.

  Two kinds of messages take the exporter out of what C++ defines: one that is longer than
  the buffer of the `MQGET` that finds it, and a PCF response in which a parameter states
  a length or a count that wraps around.  The first does it at once; the second only if a
  parser reads the parameter.

  WHAT THE FILE PROVES.  No method of the client has another cause of undefined behaviour,
  and none that returns or throws has found a message that is too long.
-/
import IbmmqExporter.Foundation.Blame
import IbmmqExporter.Foundation.Transcript
import IbmmqExporter.Metrics.Status
import IbmmqExporter.Mq.Buffers
import IbmmqExporter.Mq.Exchanges

set_option autoImplicit false

namespace IbmmqExporter.Mq

open Foundation Effect

/-- A parameter of the response states a length or a count that wraps around. -/
def Wraps (message : Bytes) : Prop :=
  ∃ p ∈ Pcf.responseParams message, Pcf.StringWraps p ∨ Pcf.ListWraps p

/-- An `MQGET` that found such a response. -/
def MqiEvent.Wrapping : MqiEvent → Prop
  | .got _ _ message => Wraps message
  | _ => False

/-- A method has nothing but messages to blame. -/
abbrev Blaming {α : Type} (c : Method α) : Prop :=
  Accounts Session.log MqiEvent.Oversize MqiEvent.Wrapping c

/-! ## What a command finds -/

/-- The messages have been found by some `MQGET`s. -/
def FoundIn (responses : List Bytes) (events : List MqiEvent) : Prop :=
  ∀ response ∈ responses, ∃ hobj size, .got hobj size response ∈ events

theorem FoundIn.mono {responses : List Bytes} {events events' : List MqiEvent}
    (h : FoundIn responses events) (hsub : events ⊆ events') : FoundIn responses events' := by
  intro response hmem
  obtain ⟨hobj, size, hgot⟩ := h response hmem
  exact ⟨hobj, size, hsub hgot⟩

/-- What is copied out of the buffer is the message, or nothing goes on. -/
theorem tells_copied {α : Type} {size : Nat} {r : Reply} {k : Bytes → Method α}
    {Q : α → List MqiEvent → Prop} {F : List MqiEvent → Prop} (hcc : r.cc ≠ .failed)
    (hk : Tells (k r.message) Q F) :
    Tells (lift (copyOut size (getResult size r).datalen (getResult size r).written) >>= k)
      Q F := by
  by_cases hfits : r.message.length ≤ size
  · rw [getResult_fits hcc hfits]
    dsimp only
    rwa [lift_copyOut hfits, pure_bind]
  · have hlong : size < (getResult size r).datalen := by
      unfold getResult
      rw [if_neg hcc]
      exact Nat.lt_of_not_le hfits
    rw [copyOut_overruns hlong]
    exact fun s => trivial

theorem tells_readResponses_found (hobj : MQHOBJ) (n : Nat) {responses : List Bytes}
    {before : List MqiEvent} (hbefore : FoundIn responses before) :
    Tells (readResponses hobj n responses)
      (fun responses new => FoundIn responses (before ++ new)) fun _ => True := by
  induction n generalizing responses before with
  | zero => exact says_pure (hbefore.mono (List.subset_append_left _ _))
  | succ n ih =>
      refine tells_call.bind ?_
      rintro _ _ ⟨r, rfl, rfl⟩
      have hstill := hbefore.mono (List.subset_append_left before [getEvent hobj (64 * 1024) r])
      refine says_ite (fun _ => says_pure hstill) fun hcc => ?_
      have hcall : r.cc ≠ .failed := fun hfailed => hcc (getResult_failed _ hfailed).1
      refine tells_copied hcall ?_
      have hgot : .got hobj (64 * 1024) r.message ∈ before ++ [getEvent hobj (64 * 1024) r] := by
        unfold getEvent
        rw [if_neg hcall]
        exact List.mem_append_right _ (List.mem_singleton_self _)
      have hfound : FoundIn (responses ++ [r.message])
          (before ++ [getEvent hobj (64 * 1024) r]) :=
        List.forall_mem_append.mpr
          ⟨hstill, List.forall_mem_singleton.mpr ⟨hobj, 64 * 1024, hgot⟩⟩
      refine says_ite (fun _ => says_pure hfound) fun _ => (ih hfound).mono ?_ fun _ h => h
      intro responses new h
      rwa [List.append_assoc] at h

/-- What a command returns, its `MQGET`s have found. -/
theorem tells_sendPcfCommand_found (cmd : Bytes) :
    Tells (sendPcfCommand cmd) (fun responses new => FoundIn responses new) fun _ => True := by
  have hnone {before : List MqiEvent} {hobj : MQHOBJ} :
      Tells (mqi (mqclose hobj .deletePurge) >>= fun _ => (pure [] : Method (List Bytes)))
        (fun responses new => FoundIn responses (before ++ new)) fun _ => True :=
    tells_then tells_mqclose fun _ => says_pure nofun
  refine Says.bind (Q := fun _ new => new = []) (says_gets fun _ => rfl) ?_
  rintro connected _ rfl
  refine says_ite (fun _ => says_pure nofun) fun _ => ?_
  refine (@tells_openDynamicQueue .replies).attempt.bind ?_
  rintro _ new (⟨⟨replyObj, replyName⟩, rfl, h, -, rfl⟩ | ⟨rfl, rfl⟩)
  · refine says_ite (fun _ => hnone) fun _ => ?_
    refine tells_openQueue.attempt.bind ?_
    rintro _ new (⟨cmdObj, rfl, h', rfl, rfl⟩ | ⟨rfl, rfl⟩)
    · refine tells_then tells_mqput fun put => tells_then tells_closeWhen fun _ => ?_
      refine says_ite (fun _ => tells_then tells_mqclose fun _ => says_pure nofun) fun _ => ?_
      have hread := @tells_readResponses_found replyObj 1000 [] [] nofun
      refine (hread.mono (fun _ _ h => h) fun _ _ => trivial).bind ?_
      intro responses new hfound
      refine tells_then tells_mqclose fun _ => says_pure (hfound.mono ?_)
      intro e he
      rw [List.nil_append] at he
      simp [he]
    · exact tells_then tells_mqclose fun _ => says_pure nofun
  · exact says_pure nofun

/-! ## Methods -/

section Methods

variable {α : Type}

theorem blaming_mqinq (hobj : MQHOBJ) : Blaming (mqi (mqinq hobj)) :=
  Watches.accounts (guarded_call fun _ => not_false)

theorem blaming_mqconnx (clientConn : Option MQCD) : Blaming (mqi (mqconnx clientConn)) :=
  Watches.accounts (guarded_call fun _ => not_false)

theorem blaming_mqdisc : Blaming (mqi mqdisc) :=
  Watches.accounts (guarded_call fun _ => not_false)

theorem blaming_inquireQueue (queueName : Bytes) : Blaming (inquireQueue queueName) := by
  refine (accounts_gets _).bind fun connected => accounts_ite (accounts_pure none) ?_
  have hopen := guarded_attempt (guarded_openQueue queueName mqooInquire) some none
  refine hopen.accounts.bind fun hobj => ?_
  cases hobj with
  | none => exact accounts_pure none
  | some hobj =>
      exact (blaming_mqinq hobj).bind fun r =>
        (guarded_closeQueue hobj).accounts.bind fun _ => accounts_pure (some r)

theorem blaming_getQueueInfo (queueName : Bytes) : Blaming (getQueueInfo queueName) := by
  refine (blaming_inquireQueue queueName).bind fun r => ?_
  cases r with
  | none => exact accounts_pure none
  | some r => exact accounts_ite (accounts_pure none) (accounts_pure _)

/-- An inquiry whose replies are parsed. -/
theorem blaming_inquireStatus (cmd : Bytes) {parse : List Bytes → Pcf.Parse (List α)}
    (hparse : ∀ responses, (∀ response ∈ responses, ¬ Wraps response) →
      (parse responses).Returns) :
    Blaming (inquireStatus cmd parse) := by
  refine (guarded_sendPcfCommand cmd).interpret fun s s' responses new hrun hlog hnew => ?_
  have htells := tells_sendPcfCommand_found cmd s
  obtain ⟨new', hlog', hfound⟩ := of_wp_ok htells hrun
  obtain rfl := List.append_cancel_left (hlog.symm.trans hlog')
  intro hundefined
  have hreturns := hparse responses fun response hmem hwraps => by
    obtain ⟨hobj, size, hgot⟩ := hfound response hmem
    exact hnew _ hgot hwraps
  rw [hundefined] at hreturns
  exact Outcome.not_returns_undefined hreturns

theorem blaming_inquireParsed (parser : Pcf.StatusParser α) (cmd : Bytes) :
    Blaming (inquireStatus cmd parser.parse) :=
  blaming_inquireStatus cmd fun _ h => parser.parse_returns fun response hmem p hp =>
    not_or.mp fun hwraps => h response hmem ⟨p, hp, hwraps⟩

theorem blaming_discoverQueues (pattern : Bytes) : Blaming (discoverQueues pattern) :=
  (guarded_sendPcfCommand _).accounts.bind fun responses =>
    accounts_of_returns (discoverResponses_returns responses)

theorem blaming_mqclose (hobj : MQHOBJ) (option : CloseOption) :
    Blaming (mqi (mqclose hobj option)) := (guarded_mqclose hobj option).accounts

theorem blaming_update (f : MQClient → MQClient) : Blaming (update f) :=
  (guarded_update f).accounts

theorem blaming_closeWhen (hobj : MQHOBJ) (option : CloseOption) :
    Blaming (when (hobj ≠ 0) do let _ ← mqi (mqclose hobj option)) :=
  (guarded_closeWhen hobj option).accounts

theorem blaming_connect : Blaming connect := by
  have hplatform : Blaming detectPlatform := by
    refine (guarded_mqopen _ _).accounts.bind fun r => accounts_ite (blaming_update _) ?_
    refine (blaming_mqinq _).bind fun inq => ?_
    exact (blaming_mqclose _ _).bind fun _ =>
      accounts_ite (blaming_update _) (blaming_update _)
  refine (accounts_gets _).bind fun connected => accounts_ite (accounts_pure ()) ?_
  refine (accounts_gets _).bind fun config => ?_
  refine (blaming_mqconnx _).bind fun r => accounts_ite ?_ ?_
  · exact accounts_lift nofun
  · exact (blaming_update _).bind fun _ => hplatform

theorem blaming_unsubscribeAll : Blaming unsubscribeAll := by
  refine (accounts_gets _).bind fun subscriptions => ?_
  refine (accounts_forEach fun sub _ => ?_).bind fun _ => blaming_update _
  exact (blaming_closeWhen _ _).bind fun _ => blaming_closeWhen _ _

theorem blaming_disconnect : Blaming disconnect := by
  have hclose (hobj : MQHOBJ) (f : MQClient → MQClient) :
      Blaming (do
        closeQueue hobj
        update f) :=
    (guarded_closeQueue hobj).accounts.bind fun _ => blaming_update f
  refine (accounts_gets _).bind fun c => accounts_ite (accounts_pure ()) ?_
  refine blaming_unsubscribeAll.bind fun _ => (accounts_when (hclose _ _)).bind fun _ => ?_
  refine (accounts_when (hclose _ _)).bind fun _ => ?_
  exact blaming_mqdisc.bind fun _ => blaming_update _

theorem blaming_opening (queueName what : Bytes) (f : MQHOBJ → MQClient → MQClient) :
    Blaming (do
      let connected ← client MQClient.connected
      if ¬ connected then throwRuntimeError what
      else
        let hobj ← openQueue queueName readOptions
        update (f hobj)) := by
  refine (accounts_gets _).bind fun connected => accounts_ite (accounts_lift nofun) ?_
  exact (guarded_openQueue queueName _).accounts.bind fun hobj => blaming_update _

theorem blaming_createSubscription (topic : Bytes) : Blaming (createSubscription topic) := by
  refine (accounts_gets _).bind fun connected => accounts_ite (accounts_pure none) ?_
  refine (guarded_attempt (guarded_openDynamicQueue _ _ _) _ _).accounts.bind fun dest => ?_
  rcases dest with _ | ⟨outHobj, name⟩
  · exact accounts_pure none
  refine (guarded_mqsub _ _).accounts.bind fun sub => accounts_ite ?_ (accounts_pure _)
  exact (blaming_mqclose _ _).bind fun _ => accounts_pure none

theorem blaming_subscribeToTopic (topic : Bytes) : Blaming (subscribeToTopic topic) := by
  rw [subscribeToTopic_eq]
  refine (blaming_createSubscription topic).bind fun sub => ?_
  cases sub with
  | none => exact accounts_pure false
  | some handles => exact (blaming_update _).bind fun _ => accounts_pure true

theorem blaming_closeSubscription (sub : SubHandle) : Blaming (closeSubscription sub) :=
  (blaming_closeWhen _ _).bind fun _ => blaming_closeWhen _ _

/-- The loop over a queue, by induction on its turns. -/
theorem blaming_getAllMessages (queueType : QueueType) : Blaming (getAllMessages queueType) := by
  have hdrain (fuel : Nat) (messages : List MQMessage) :
      Blaming (drain queueType fuel messages) := by
    induction fuel generalizing messages with
    | zero => exact accounts_lift nofun
    | succ fuel ih =>
        refine (guarded_getMessage queueType).accounts.bind fun msg => ?_
        cases msg with
        | none => exact accounts_pure messages
        | some msg => exact ih _
  exact fun s => hdrain _ [] s

end Methods

end IbmmqExporter.Mq
