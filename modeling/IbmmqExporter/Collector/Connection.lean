/-
  Collector/Connection.lean --- who changes `connected_`.

  Apart from `connect` and `disconnect` only `get_message` assigns to it, when an
  `MQGET` fails with `MQRC_CONNECTION_BROKEN`.

  WHAT THE FILE PROVES.  The other methods of client and monitor leave the field
  alone, whatever their outcome.  Behind the message part of a cycle it says whether
  the connection was up before and no `MQGET` of that part has found it broken.
-/
import IbmmqExporter.Foundation.Recorder
import IbmmqExporter.Metrics.Batch
import IbmmqExporter.Monitor.Subscriptions

set_option autoImplicit false

namespace IbmmqExporter.Collector

open Foundation Effect Mq

/-- `mq_client_->is_connected()`. -/
def isConnected (s : Session) : Bool := s.client.connected

/-! ## Methods that leave the client alone -/

section Alone

variable {α : Type}

theorem preserves_mqi (c : MqiEffect α) :
    Preserves Session.client (mqi c) := fun _ => rfl

theorem preserves_client (f : MQClient → α) :
    Preserves Session.client (Mq.client f) := fun _ => rfl

theorem preserves_openQueue (queueName : Bytes) (options : Int32) :
    Preserves Session.client (openQueue queueName options) :=
  preserves_openQueue_of (fun _ _ => preserves_mqi _) queueName options

theorem preserves_openDynamicQueue (queueName : Bytes) (options : Int32) (name : Bytes) :
    Preserves Session.client (openDynamicQueue queueName options name) :=
  preserves_openDynamicQueue_of (fun _ _ => preserves_mqi _) queueName options name

/-- A call of a queue manager's object in a `try`. -/
theorem preserves_attempt {c : Method α} (hc : Preserves Session.client c) :
    Preserves Session.client
      (tryCatch (some <$> c) fun _ => return none) :=
  (hc.map some).tryCatch fun _ => preserves_pure none

theorem preserves_close (hobj : MQHOBJ) (option : CloseOption) :
    Preserves Session.client (do
      let _ ← mqi (mqclose hobj option)) :=
  (preserves_mqi _).bind fun _ => preserves_pure ()

theorem preserves_closeQueue (hobj : MQHOBJ) :
    Preserves Session.client (closeQueue hobj) :=
  preserves_when (preserves_close hobj .none)

theorem preserves_closeSubscription (sub : SubHandle) :
    Preserves Session.client (closeSubscription sub) :=
  (preserves_when (preserves_close _ _)).bind fun _ => preserves_when (preserves_close _ _)

theorem preserves_inquireQueue (queueName : Bytes) :
    Preserves Session.client (inquireQueue queueName) := by
  refine (preserves_client _).bind fun connected => preserves_ite (preserves_pure _) ?_
  refine (preserves_attempt (preserves_openQueue _ _)).bind fun hobj => ?_
  cases hobj with
  | none => exact preserves_pure none
  | some hobj =>
      refine (preserves_mqi _).bind fun r => ?_
      exact (preserves_closeQueue hobj).bind fun _ => preserves_pure _

theorem preserves_getQueueInfo (queueName : Bytes) :
    Preserves Session.client (getQueueInfo queueName) := by
  refine (preserves_inquireQueue queueName).bind fun r => ?_
  cases r with
  | none => exact preserves_pure none
  | some r => exact preserves_ite (preserves_pure _) (preserves_pure _)

theorem preserves_readResponses (hobj : MQHOBJ) (n : Nat) (responses : List Bytes) :
    Preserves Session.client (readResponses hobj n responses) :=
  preserves_readResponses_of (preserves_mqi _) n responses

theorem preserves_sendPcfCommand (cmd : Bytes) :
    Preserves Session.client (sendPcfCommand cmd) := by
  have hpurge (hobj : MQHOBJ) : Preserves Session.client (do
      let _ ← mqi (mqclose hobj .deletePurge)
      return ([] : List Bytes)) := (preserves_mqi _).bind fun _ => preserves_pure []
  refine (preserves_client _).bind fun connected => preserves_ite (preserves_pure _) ?_
  refine (preserves_attempt (preserves_openDynamicQueue _ _ _)).bind fun reply => ?_
  rcases reply with _ | ⟨replyHobj, replyName⟩
  · exact preserves_pure []
  · apply preserves_ite (hpurge replyHobj)
    refine (preserves_attempt (preserves_openQueue _ _)).bind fun queue => ?_
    cases queue with
    | none => exact hpurge replyHobj
    | some cmdHobj =>
        refine (preserves_mqi _).bind fun put => ?_
        refine (preserves_closeQueue cmdHobj).bind fun _ => preserves_ite (hpurge replyHobj) ?_
        refine (preserves_readResponses replyHobj 1000 []).bind fun responses => ?_
        exact (preserves_mqi _).bind fun _ => preserves_pure responses

theorem preserves_discoverQueues (pattern : Bytes) :
    Preserves Session.client (discoverQueues pattern) :=
  (preserves_sendPcfCommand _).bind fun _ => preserves_lift _

theorem preserves_readPublications (hobj : MQHOBJ) (n : Nat) (messages : List MQMessage) :
    Preserves Session.client (readPublications hobj n messages) := by
  induction n generalizing messages with
  | zero => exact preserves_pure messages
  | succ n ih =>
      refine (preserves_mqi _).bind fun r => preserves_ite (preserves_pure _) ?_
      exact (preserves_lift _).bind fun data => ih _

theorem preserves_getMessagesFromHandle (hobj : MQHOBJ) (maxMessages : Nat) :
    Preserves Session.client (getMessagesFromHandle hobj maxMessages) :=
  (preserves_client _).bind fun _ =>
    preserves_ite (preserves_pure _) (preserves_readPublications hobj maxMessages [])

theorem preserves_subscribeAndGet (topicString : Bytes) :
    Preserves Session.client (subscribeAndGet topicString) := by
  refine (preserves_client _).bind fun connected => preserves_ite (preserves_pure _) ?_
  refine (preserves_attempt (preserves_openDynamicQueue _ _ _)).bind fun dest => ?_
  rcases dest with _ | ⟨destHobj, _⟩
  · exact preserves_pure none
  · refine (preserves_mqi _).bind fun sub => preserves_ite ?_ ?_
    · exact (preserves_mqi _).bind fun _ => preserves_pure none
    · refine (preserves_mqi _).bind fun r => ?_
      refine (preserves_when (preserves_close _ _)).bind fun _ => ?_
      refine (preserves_when (preserves_close _ _)).bind fun _ => preserves_ite ?_ ?_
      · exact preserves_pure none
      · exact (preserves_lift _).bind fun data => preserves_pure _

theorem preserves_createSubscription (topicString : Bytes) :
    Preserves Session.client (createSubscription topicString) := by
  refine (preserves_client _).bind fun connected => preserves_ite (preserves_pure _) ?_
  refine (preserves_attempt (preserves_openDynamicQueue _ _ _)).bind fun dest => ?_
  rcases dest with _ | ⟨outHobj, _⟩
  · exact preserves_pure none
  · refine (preserves_mqi _).bind fun sub => preserves_ite ?_ (preserves_pure _)
    exact (preserves_mqi _).bind fun _ => preserves_pure none

end Alone

/-! ## Other fields of the client -/

section Fields

theorem preserves_update {f : MQClient → MQClient}
    (hf : ∀ c, (f c).connected = c.connected) : Preserves isConnected (update f) :=
  preserves_modify fun s => hf s.client

theorem preserves_isConnected {α : Type} {c : Method α} (hc : Preserves Session.client c) :
    Preserves isConnected c := hc.comp MQClient.connected

theorem preserves_openStatsQueue (queueName : Bytes) :
    Preserves isConnected (openStatsQueue queueName) := by
  refine (preserves_isConnected (preserves_client _)).bind fun connected => ?_
  apply preserves_ite (preserves_raise _)
  refine (preserves_isConnected (preserves_openQueue _ _)).bind fun hobj => ?_
  exact preserves_update fun _ => rfl

theorem preserves_openAccountingQueue (queueName : Bytes) :
    Preserves isConnected (openAccountingQueue queueName) := by
  refine (preserves_isConnected (preserves_client _)).bind fun connected => ?_
  apply preserves_ite (preserves_raise _)
  refine (preserves_isConnected (preserves_openQueue _ _)).bind fun hobj => ?_
  exact preserves_update fun _ => rfl

theorem preserves_subscribeToTopic (topicString : Bytes) :
    Preserves isConnected (subscribeToTopic topicString) := by
  refine (preserves_isConnected (preserves_client _)).bind fun connected => ?_
  apply preserves_ite (preserves_pure _)
  refine (preserves_isConnected
    (preserves_attempt (preserves_openDynamicQueue _ _ _))).bind fun dest => ?_
  rcases dest with _ | ⟨destHobj, _⟩
  · exact preserves_pure false
  · refine (preserves_isConnected (preserves_mqi _)).bind fun sub => preserves_ite ?_ ?_
    · exact (preserves_isConnected (preserves_mqi _)).bind fun _ => preserves_pure false
    · exact (preserves_update fun _ => rfl).bind fun _ => preserves_pure true

end Fields

/-! ## Connecting and disconnecting -/

section Connecting

variable {s : Session}

/-- A call takes the next answer. -/
theorem wp_answered {α : Type} {event : Reply → MqiEvent} {result : Reply → α}
    {Q : α → Session → Prop} {E : StdException → Session → Prop}
    (hQ : ∀ r supply, s.mqi.supply = r :: supply → Q (result r) (s.answered (event r) supply)) :
    wp (mqi (call event result)) Q E s := by
  unfold wp
  rcases hs : s.mqi.supply with _ | ⟨reply, supply⟩
  · rw [mqi_call_nil hs]
    trivial
  · rw [mqi_call_cons hs]
    exact hQ reply supply hs

/-- A call neither throws nor changes the client. -/
theorem wp_call {α : Type} {event : Reply → MqiEvent} {result : Reply → α}
    {Q : α → Session → Prop} {E : StdException → Session → Prop}
    (hQ : ∀ a s', s'.client = s.client → Q a s') : wp (mqi (call event result)) Q E s :=
  wp_answered fun _ _ _ => hQ _ _ rfl

theorem wp_detectPlatform_isConnected {b : Bool} {E : StdException → Session → Prop}
    (h : isConnected s = b) : wp detectPlatform (fun _ s' => isConnected s' = b) E s := by
  unfold detectPlatform
  rw [wp_bind]
  refine wp_call fun r s₁ hs₁ => ?_
  have h₁ : isConnected s₁ = b := (congrArg MQClient.connected hs₁).trans h
  rw [wp_ite]
  split
  · exact h₁
  · rw [wp_bind]
    refine wp_call fun inq s₂ hs₂ => ?_
    rw [wp_bind]
    refine wp_call fun _ s₃ hs₃ => ?_
    have h₃ : isConnected s₃ = b := (congrArg MQClient.connected (hs₃.trans hs₂)).trans h₁
    rw [wp_ite]
    split
    · exact h₃
    · exact h₃

/-- `connect` throws only while there is no connection. -/
theorem wp_connect_isConnected :
    wp connect (fun _ s' => isConnected s' = true) (fun _ s' => isConnected s' = false) s := by
  unfold connect
  rw [wp_bind]
  show wp (if s.client.connected = true then _ else _) _ _ s
  split
  · next hconnected => exact hconnected
  · next hconnected =>
      have hdown : s.client.connected = false := Bool.eq_false_of_not_eq_true hconnected
      rw [wp_bind]
      show wp (mqi (mqconnx (clientConn s.client.config)) >>= _) _ _ s
      rw [wp_bind]
      refine wp_call fun r s' hs' => ?_
      rw [wp_ite]
      split
      · exact (congrArg MQClient.connected hs').trans hdown
      · rw [wp_bind]
        exact wp_detectPlatform_isConnected rfl

/-- `connect` returns only where there is a connection, or where the next answer of the
queue manager is no failure. -/
theorem wp_connect_admitted :
    wp connect (fun _ _ => s.client.connected = true ∨
      ∃ r, s.mqi.supply.head? = some r ∧ r.cc ≠ .failed) (fun _ _ => True) s := by
  have hany {α : Type} {c : Method α} {s' : Session} {P : Prop} (hP : P) :
      wp c (fun _ _ => P) (fun _ _ => True) s' :=
    wp_mono (wp_of_state (R := fun _ => True) trivial) (fun _ _ _ => hP) fun _ _ h => h
  unfold connect
  rw [wp_bind]
  show wp (if s.client.connected = true then _ else _) _ _ s
  split
  · next hconnected => exact Or.inl hconnected
  · rw [wp_bind]
    show wp (mqi (mqconnx (clientConn s.client.config)) >>= _) _ _ s
    rw [wp_bind]
    refine wp_answered fun r supply hsupply => ?_
    rw [wp_ite]
    split
    · trivial
    · next hcc => exact hany (Or.inr ⟨r, hsupply ▸ rfl, hcc⟩)

/-- A `connect` that throws has made one call. -/
theorem wp_connect_log :
    wp connect (fun _ _ => True) (fun _ s' => ∃ cd, s'.log = s.log ++ [.connx cd false]) s := by
  have hquiet {s' : Session} : wp detectPlatform (fun _ _ => True) (fun _ _ => False) s' :=
    wp_mono (wp_detectPlatform_isConnected rfl) (fun _ _ _ => trivial) fun _ _ h => h
  unfold connect
  rw [wp_bind]
  show wp (if s.client.connected = true then _ else _) _ _ s
  split
  · trivial
  · rw [wp_bind]
    show wp (mqi (mqconnx (clientConn s.client.config)) >>= _) _ _ s
    rw [wp_bind]
    refine wp_answered fun r supply _ => ?_
    rw [wp_ite]
    split
    · next hcc =>
        have hfalse : decide (r.cc ≠ .failed) = false := decide_eq_false (not_not.mpr hcc)
        refine ⟨clientConn s.client.config, ?_⟩
        rw [Session.answered_log, hfalse]
    · exact wp_mono hquiet (fun _ _ h => h) fun _ _ h => h.elim

/-- Behind `disconnect` there is none; it does not throw. -/
theorem wp_disconnect_isConnected :
    wp disconnect (fun _ s' => isConnected s' = false) (fun _ _ => False) s := by
  have hclose (hobj : MQHOBJ) (option : CloseOption) (s : Session) :
      wp (do let _ ← mqi (mqclose hobj option)) (fun _ _ => True) (fun _ _ => False) s := by
    rw [wp_bind]
    exact wp_call fun _ _ _ => trivial
  have hcloseWhen (p : Prop) [Decidable p] (hobj : MQHOBJ) (option : CloseOption) (s : Session) :
      wp (when p do let _ ← mqi (mqclose hobj option)) (fun _ _ => True) (fun _ _ => False)
        s := by
    rw [wp_when]
    split
    · exact hclose hobj option s
    · trivial
  have hqueue (p : Prop) [Decidable p] (hobj : MQHOBJ) (f : MQClient → MQClient)
      (s : Session) :
      wp (when p (closeQueue hobj >>= fun _ => update f)) (fun _ _ => True) (fun _ _ => False)
        s := by
    rw [wp_when]
    split
    · exact wp_seq (hcloseWhen _ hobj .none s) fun _ _ _ => trivial
    · trivial
  have hunsubscribe : wp unsubscribeAll (fun _ _ => True) (fun _ _ => False) s := by
    unfold unsubscribeAll
    rw [wp_bind]
    refine wp_seq (wp_forEach (I := fun _ _ => True) trivial ?_) fun _ _ _ => trivial
    intro sub _ s' _
    exact wp_seq (hcloseWhen _ _ _ s') fun _ s'' _ => hcloseWhen _ _ _ s''
  unfold disconnect
  rw [wp_bind]
  show wp (if _ then _ else _) _ _ s
  split
  · next hidle => exact Bool.eq_false_of_not_eq_true hidle.1
  · refine wp_seq hunsubscribe fun _ s₁ _ => ?_
    refine wp_seq (hqueue _ _ _ s₁) fun _ s₂ _ => ?_
    refine wp_seq (hqueue _ _ _ s₂) fun _ s₃ _ => ?_
    rw [wp_bind]
    exact wp_call fun _ _ _ => rfl

end Connecting

/-! ## The monitor -/

section Monitor

open Monitor

/-- The connection, seen from the monitor. -/
def worldConnected (w : World) : Bool := isConnected w.session

variable {α : Type}

theorem preserves_session {c : Method α} (hc : Preserves Session.client c) :
    Preserves worldConnected (Monitor.session c) :=
  (preserves_isConnected hc).zoom fun _ _ => rfl

theorem preserves_assign (f : ResourceMonitor → ResourceMonitor) :
    Preserves worldConnected (assign f) := fun _ => rfl

theorem preserves_discover : Preserves worldConnected discover :=
  preserves_discover_of (fun topic => preserves_session (preserves_subscribeAndGet topic))
    fun _ _ => preserves_assign _

theorem preserves_subscribeData (className typeName topic : Bytes) :
    Preserves worldConnected (subscribeData className typeName topic) := by
  refine (preserves_session (preserves_createSubscription topic)).bind fun sub => ?_
  cases sub with
  | none => exact preserves_pure ()
  | some handles => exact preserves_assign _

theorem preserves_createSubscriptions (queues : List Bytes) :
    Preserves worldConnected (createSubscriptions queues) := by
  refine (preserves_gets _).bind fun classes => preserves_ite (preserves_pure false) ?_
  refine (preserves_gets _).bind fun before => ?_
  refine (preserves_forEach fun t _ => preserves_subscribeData _ _ _).bind fun _ => ?_
  exact (preserves_gets _).bind fun behind => preserves_pure _

theorem preserves_processPublications : Preserves worldConnected processPublications := by
  have hloop (subs : List DataSub) (metrics : List PublicationMetric) :
      Preserves worldConnected (publicationsOf subs metrics) := by
    induction subs generalizing metrics with
    | nil => exact preserves_pure metrics
    | cons sub subs ih =>
        refine (preserves_session (preserves_getMessagesFromHandle _ _)).bind fun messages => ?_
        refine (preserves_gets _).bind fun typeElements => ?_
        split
        · exact ih _
        · exact (preserves_lift _).bind fun found => ih _
  exact (preserves_gets _).bind fun subs => hloop subs []

theorem preserves_monitorClose : Preserves worldConnected Monitor.close := by
  refine (preserves_gets _).bind fun subs => ?_
  refine Preserves.bind (preserves_forEach fun sub _ => ?_) fun _ => preserves_assign _
  exact preserves_session (preserves_closeSubscription sub.handles)

end Monitor

/-! ## The messages of a cycle -/

section Messages

open Metrics

/-- A call that has found the connection broken. -/
def isBroken : MqiEvent → Bool
  | .gotNothing _ rc => decide (rc = mqrcConnectionBroken)
  | _ => false

/-- The connection, seen from the metrics collector. -/
def metricsConnected (c : MetricsCollector) : Bool := isConnected c.session

theorem latches_getMessageFrom (hobj : MQHOBJ) (queueType : QueueType) :
    Latches Session.log isBroken isConnected (getMessageFrom hobj queueType) := by
  intro s
  unfold getMessageFrom mqget
  rcases hs : s.mqi.supply with _ | ⟨r, supply⟩
  · rw [bind_of_pending (mqi_call_nil hs)]
    exact ⟨[], (List.append_nil _).symm, (Bool.and_true _).symm⟩
  · rw [bind_of_ok (mqi_call_cons hs)]
    by_cases hcc : r.cc = .failed
    · obtain ⟨hfailed, hrc⟩ := getResult_failed (100 * 1024) hcc
      have hevent : getEvent hobj (100 * 1024) r = .gotNothing hobj r.rc := if_pos hcc
      rw [if_pos hfailed, hrc, hevent]
      refine ⟨[.gotNothing hobj r.rc], ?_⟩
      by_cases hbroken : r.rc = mqrcConnectionBroken
      · have hany : [MqiEvent.gotNothing hobj r.rc].any isBroken = true := by
          rw [List.any_cons, isBroken, decide_eq_true hbroken, Bool.true_or]
        rw [if_neg (by rw [hbroken]; decide), if_pos hbroken, hany]
        exact ⟨rfl, (Bool.and_false _).symm⟩
      · have hany : [MqiEvent.gotNothing hobj r.rc].any isBroken = false := by
          rw [List.any_cons, isBroken, decide_eq_false hbroken, List.any_nil, Bool.or_false]
        rw [if_neg hbroken, hany]
        split
        · exact ⟨rfl, (Bool.and_true _).symm⟩
        · exact ⟨rfl, (Bool.and_true _).symm⟩
    · have hfound := (getResult_found (100 * 1024) hcc).1
      have hevent : getEvent hobj (100 * 1024) r = .got hobj (100 * 1024) r.message := if_neg hcc
      rw [if_neg hfound, hevent]
      refine ⟨[.got hobj (100 * 1024) r.message], ?_⟩
      rw [bind_apply, lift_apply]
      rcases copyOut (100 * 1024) (getResult (100 * 1024) r).datalen
        (getResult (100 * 1024) r).written with _ | _ | _ | _
      · exact ⟨rfl, (Bool.and_true _).symm⟩
      · exact ⟨rfl, (Bool.and_true _).symm⟩
      · exact ⟨rfl, (Bool.and_true _).symm⟩
      · exact ⟨rfl, (Bool.and_true _).symm⟩

theorem latches_getMessage (queueType : QueueType) :
    Latches Session.log isBroken isConnected (getMessage queueType) := by
  have hclient : Latches Session.log isBroken isConnected (Mq.client id) :=
    latches_of_preserves (fun _ => rfl) fun _ => rfl
  refine hclient.bind fun c => ?_
  cases queueType with
  | stats => exact latches_ite (latches_pure none) (latches_getMessageFrom _ _)
  | accounting => exact latches_ite (latches_pure none) (latches_getMessageFrom _ _)

theorem latches_drain (queueType : QueueType) (fuel : Nat) (messages : List MQMessage) :
    Latches Session.log isBroken isConnected (drain queueType fuel messages) := by
  induction fuel generalizing messages with
  | zero => exact latches_of_preserves (preserves_lift _) (preserves_lift _)
  | succ fuel ih =>
      refine (latches_getMessage queueType).bind fun msg => ?_
      cases msg with
      | none => exact latches_pure messages
      | some msg => exact ih _

theorem latches_getAllMessages (queueType : QueueType) :
    Latches Session.log isBroken isConnected (getAllMessages queueType) :=
  fun s => latches_drain queueType _ [] s

theorem latches_collectMessages (queueType : QueueType) :
    Latches MetricsCollector.log isBroken metricsConnected (collectMessages queueType) :=
  ((latches_getAllMessages queueType).zoom fun _ _ => rfl).tryCatch fun _ => latches_pure []

theorem latches_collectAllMessages (cfg : Metrics.Config) :
    Latches MetricsCollector.log isBroken metricsConnected (collectAllMessages cfg) := by
  refine (latches_collectMessages .stats).bind fun statsMsgs => ?_
  refine (latches_collectMessages .accounting).bind fun acctMsgs => ?_
  have hsession (c : MetricsCollector) :
      (updateMetricsFromMessages cfg statsMsgs acctMsgs c).2.session = c.session := by
    obtain ⟨done, -, -, hsession, -⟩ := updateMetricsFromMessages_hands cfg statsMsgs acctMsgs c
    exact hsession
  exact latches_of_preserves (fun c => congrArg Session.log (hsession c))
    fun c => congrArg isConnected (hsession c)

end Messages

end IbmmqExporter.Collector
