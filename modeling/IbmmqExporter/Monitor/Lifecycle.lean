/-
  Monitor/Lifecycle.lean --- runs of a client and a resource monitor.

  A run is a sequence of calls of the methods of one client and of the monitor that
  uses it, as the collector makes them: `connect` at most once before a `disconnect`,
  each of the two queues opened at most once per connection, and everything else in
  any order, with any answers of the queue manager and any exceptions.

  WHAT THE FILE PROVES.  In every state of a run what is open at the queue manager is
  what the fields of client and monitor account for.  So nothing is open, and nothing
  has been closed twice, when the monitor is closed and the client disconnected.
-/
import IbmmqExporter.Monitor.ResourceMonitor
import IbmmqExporter.Mq.Handles

set_option autoImplicit false

namespace IbmmqExporter.Monitor

open Foundation Pcf Mq

/-! ## Runs -/

/-- The calls of a run. -/
inductive Op where
  | connect
  | disconnect
  | openStatsQueue (queueName : Bytes)
  | openAccountingQueue (queueName : Bytes)
  | getMessage (queueType : QueueType)
  | getAllMessages (queueType : QueueType)
  | getQueueStats (queueName : Bytes)
  | getQueueInfo (queueName : Bytes)
  | getQueueHandles (queueName : Bytes)
  /-- every inquiry by a PCF command: they differ in the command, and in what they
  make of the responses -/
  | sendPcfCommand (cmd : Bytes)
  | subscribeToTopic (topicString : Bytes)
  | receivePublications
  | unsubscribeAll
  | subscribeAndGet (topicString : Bytes)
  | getMessagesFromHandle (hobj : MQHOBJ) (maxMessages : Nat)
  | discover
  | createSubscriptions (queues : List Bytes)
  | processPublications
  | close

/-- The method, but for what it returns. -/
def Op.run : Op → Program Unit
  | .connect => session Mq.connect
  | .disconnect => session Mq.disconnect
  | .openStatsQueue queueName => session (Mq.openStatsQueue queueName)
  | .openAccountingQueue queueName => session (Mq.openAccountingQueue queueName)
  | .getMessage queueType => do let _ ← session (Mq.getMessage queueType)
  | .getAllMessages queueType => do let _ ← session (Mq.getAllMessages queueType)
  | .getQueueStats queueName => do let _ ← session (Mq.getQueueStats queueName)
  | .getQueueInfo queueName => do let _ ← session (Mq.getQueueInfo queueName)
  | .getQueueHandles queueName => do let _ ← session (Mq.getQueueHandles queueName)
  | .sendPcfCommand cmd => do let _ ← session (Mq.sendPcfCommand cmd)
  | .subscribeToTopic topicString => do let _ ← session (Mq.subscribeToTopic topicString)
  | .receivePublications => do let _ ← session Mq.receivePublications
  | .unsubscribeAll => session Mq.unsubscribeAll
  | .subscribeAndGet topicString => do let _ ← session (Mq.subscribeAndGet topicString)
  | .getMessagesFromHandle hobj maxMessages => do
      let _ ← session (Mq.getMessagesFromHandle hobj maxMessages)
  | .discover => do let _ ← Monitor.discover
  | .createSubscriptions queues => do let _ ← Monitor.createSubscriptions queues
  | .processPublications => do let _ ← Monitor.processPublications
  | .close => Monitor.close

/-- What has been called: what has succeeded since the last `disconnect`, and
whether `create_subscriptions` has been called since the last `close`. -/
structure Stage where
  client : Phase := {}
  subscribed : Bool := false
  deriving DecidableEq, Repr

/-- What the collector keeps to. -/
def Op.allowed (stage : Stage) : Op → Prop
  | .connect => stage.client.connected = false
  | .openStatsQueue _ => stage.client.statsOpened = false
  | .openAccountingQueue _ => stage.client.acctOpened = false
  | _ => True

/-- The stage after a call that has returned. -/
def Op.returned (stage : Stage) : Op → Stage
  | .connect => { stage with client := { stage.client with connected := true } }
  | .disconnect => { stage with client := {} }
  | .openStatsQueue _ => { stage with client := { stage.client with statsOpened := true } }
  | .openAccountingQueue _ => { stage with client := { stage.client with acctOpened := true } }
  | .createSubscriptions _ => { stage with subscribed := true }
  | .close => { stage with subscribed := false }
  | _ => stage

/-- The stage after a call that has thrown. -/
def Op.raised (stage : Stage) : Op → Stage
  | .createSubscriptions _ => { stage with subscribed := true }
  | _ => stage

/-- The states that a new client and a new monitor can come to.  A run goes on as
long as its calls return or throw: there is no step for a call whose answers are still
to come, nor for one whose behaviour is undefined. -/
inductive Run : Stage → World → Prop where
  | start (supply : List Reply) (config : Configuration.MQConfig) (qmgrName : Bytes) :
      Run {}
        { session := { mqi := { supply }, client := { config } }, monitor := { qmgrName } }
  | returned {stage : Stage} {w w' : World} (op : Op) (hrun : Run stage w)
      (hallowed : op.allowed stage) (hop : op.run w = (.ok (), w')) :
      Run (op.returned stage) w'
  | raised {stage : Stage} {w w' : World} {e : StdException} (op : Op) (hrun : Run stage w)
      (hallowed : op.allowed stage) (hop : op.run w = (.raised e, w')) :
      Run (op.raised stage) w'

/-! ## The invariant -/

/-- What the monitor's fields account for. -/
def ResourceMonitor.resources (m : ResourceMonitor) : Multiset Resource :=
  subResources (m.dataSubs.map DataSub.handles)

/-- What is open is what client and monitor account for. -/
structure Accounted (stage : Stage) (w : World) : Prop where
  balanced : Balanced w.monitor.resources stage.client w.session
  valid : ∀ sub ∈ w.monitor.dataSubs, sub.handles.Valid
  closed : stage.subscribed = false → w.monitor.dataSubs = []

section Rules

variable {stage : Stage} {w : World} {E : StdException → World → Prop}

/-- A method of the client, by what it does to the client. -/
theorem wp_session {α : Type} {m : Method α} {stage' stage'' : Stage}
    (h : Accounted stage w) (hs : stage'.subscribed = stage.subscribed)
    (hr : stage''.subscribed = stage.subscribed)
    (hm : Effect.wp m (fun _ => Balanced w.monitor.resources stage'.client)
      (fun _ => Balanced w.monitor.resources stage''.client) w.session) :
    Effect.wp (session m) (fun _ => Accounted stage') (fun _ => Accounted stage'') w := by
  refine Effect.wp_zoom.mpr (Effect.wp_mono hm ?_ ?_)
  · intro _ s hb
    exact ⟨hb, h.valid, fun hclosed => h.closed (hs ▸ hclosed)⟩
  · intro _ s hb
    exact ⟨hb, h.valid, fun hclosed => h.closed (hr ▸ hclosed)⟩

/-- A method that leaves the accounts as they are, by a return or an exception. -/
def Quiet {α : Type} (m : Program α) : Prop :=
  ∀ stage w, Accounted stage w →
    Effect.wp m (fun _ => Accounted stage) (fun _ => Accounted stage) w

theorem quiet_pure {α : Type} (a : α) : Quiet (pure a : Program α) := fun _ _ h => h

theorem quiet_monitor {α : Type} (f : ResourceMonitor → α) : Quiet (monitor f) :=
  fun _ _ h => h

theorem quiet_lift {α : Type} (x : Outcome StdException α) :
    Quiet (Effect.lift x : Program α) := by
  intro stage w h
  rw [Effect.wp_lift]
  exact ⟨fun _ _ => h, fun _ _ => h⟩

theorem Quiet.bind {α β : Type} {m : Program α} {k : α → Program β} (hm : Quiet m)
    (hk : ∀ a, Quiet (k a)) : Quiet (m >>= k) := by
  intro stage w h
  exact Effect.wp_seq (hm stage w h) fun a w' hw' => hk a stage w' hw'

theorem Quiet.map {α β : Type} {m : Program α} (hm : Quiet m) (f : α → β) :
    Quiet (f <$> m) := by
  rw [map_eq_pure_bind]
  exact hm.bind fun a => quiet_pure (f a)

theorem quiet_ite {α : Type} {p : Prop} [Decidable p] {m n : Program α} (hm : Quiet m)
    (hn : Quiet n) : Quiet (if p then m else n) := by
  split
  · exact hm
  · exact hn

/-- An assignment to the monitor's fields other than `data_subs_`. -/
theorem quiet_assign {f : ResourceMonitor → ResourceMonitor}
    (hf : ∀ m, (f m).dataSubs = m.dataSubs) : Quiet (assign f) := by
  intro stage w h
  have hres : (f w.monitor).resources = w.monitor.resources := by
    unfold ResourceMonitor.resources
    rw [hf]
  refine ⟨?_, ?_, ?_⟩
  · exact hres ▸ h.balanced
  · intro sub hsub
    exact h.valid sub (hf w.monitor ▸ hsub)
  · intro hclosed
    exact (hf w.monitor).trans (h.closed hclosed)

/-- A steady method of the client. -/
theorem quiet_session {α : Type} {m : Method α} (hm : Steady m) : Quiet (session m) := by
  intro stage w h
  exact wp_session h rfl rfl (hm.balanced h.balanced)

end Rules

/-! ## Discovery -/

theorem quiet_metadata (least : Int) (topic : Bytes) : Quiet (metadata least topic) := by
  refine (quiet_session (steady_subscribeAndGet topic)).bind fun msg => ?_
  cases msg with
  | none => exact quiet_pure _
  | some msg => exact quiet_ite (quiet_pure _) ((quiet_lift _).map _)

theorem quiet_discoverElements (mtype : MonitorType) (elementsTopic : Bytes) :
    Quiet (discoverElements mtype elementsTopic) := by
  refine (quiet_metadata _ _).bind fun params => ?_
  cases params with
  | none => exact quiet_pure _
  | some params => exact quiet_pure _

theorem quiet_addTypes (params : List PCFParam) (cls : MonitorClass) :
    Quiet (addTypes params cls) := by
  induction params generalizing cls with
  | nil => exact quiet_pure _
  | cons p params ih =>
      unfold addTypes
      apply quiet_ite (ih _)
      exact quiet_ite (ih _) ((quiet_discoverElements _ _).bind fun mtype => ih _)

theorem quiet_discoverTypes (cls : MonitorClass) : Quiet (discoverTypes cls) := by
  refine quiet_ite (quiet_pure _) ((quiet_metadata _ _).bind fun params => ?_)
  cases params with
  | none => exact quiet_pure _
  | some params => exact (quiet_addTypes _ _).bind fun cls => quiet_pure _

theorem quiet_addClasses (params : List PCFParam) : Quiet (addClasses params) := by
  induction params with
  | nil => exact quiet_pure _
  | cons p params ih =>
      unfold addClasses
      refine quiet_ite ih (quiet_ite ih ((quiet_discoverTypes _).bind fun found => ?_))
      cases found with
      | none => exact ih
      | some cls =>
          refine Quiet.bind ?_ fun _ => ih
          exact quiet_assign fun m => rfl

theorem quiet_discover : Quiet discover := by
  have hclasses : Quiet discoverClasses := by
    refine (quiet_monitor _).bind fun qmgrName => (quiet_metadata _ _).bind fun params => ?_
    cases params with
    | none => exact quiet_pure _
    | some params =>
        exact (quiet_addClasses _).bind fun _ => (quiet_monitor _).bind fun _ => quiet_pure _
  refine hclasses.bind fun found => quiet_ite (quiet_pure _) ?_
  refine Quiet.bind ?_ fun _ => quiet_pure _
  exact quiet_assign fun m => rfl

/-! ## Subscriptions and publications -/

theorem quiet_processPublications : Quiet processPublications := by
  have hloop (subs : List DataSub) (metrics : List PublicationMetric) :
      Quiet (publicationsOf subs metrics) := by
    induction subs generalizing metrics with
    | nil => exact quiet_pure _
    | cons sub subs ih =>
        refine (quiet_session (steady_getMessagesFromHandle _ _)).bind fun messages => ?_
        refine (quiet_monitor _).bind fun typeElements => ?_
        split
        · exact ih _
        · exact (quiet_lift _).bind fun found => ih _
  exact (quiet_monitor _).bind fun subs => hloop _ _

section Subscriptions

variable {stage : Stage} {w : World} {E : StdException → World → Prop}

/-- A subscription that is made is the monitor's. -/
theorem wp_subscribeData {className typeName topic : Bytes} (h : Accounted stage w)
    (hs : stage.subscribed = true) :
    Effect.wp (subscribeData className typeName topic) (fun _ => Accounted stage) E w := by
  have hcreate : Effect.wp (session (createSubscription topic)) (fun r w' =>
      (r = none ∧ Accounted stage w') ∨ ∃ sub : SubHandle, r = some sub ∧ sub.Valid ∧
        w'.monitor = w.monitor ∧
        Balanced (sub.resources + w.monitor.resources) stage.client w'.session) E w := by
    refine Effect.wp_zoom.mpr (Effect.wp_mono (wp_createSubscription h.balanced) ?_
      fun _ _ he => he)
    rintro r s (⟨hr, hb⟩ | ⟨sub, hr, hsub, hb⟩)
    · exact Or.inl ⟨hr, hb, h.valid, h.closed⟩
    · exact Or.inr ⟨sub, hr, hsub, rfl, hb⟩
  refine Effect.wp_seq hcreate ?_
  rintro _ w' (⟨rfl, h⟩ | ⟨sub, rfl, hsub, hmonitor, hb⟩)
  · exact h
  · refine ⟨?_, ?_, ?_⟩
    · unfold ResourceMonitor.resources
      rw [List.map_append, subResources_append, hmonitor, Multiset.add_comm]
      have hone : subResources ([DataSub.mk className typeName sub].map DataSub.handles) =
          sub.resources := by
        rw [List.map_singleton, subResources_cons, subResources_nil, Multiset.add_zero]
      rw [hone]
      exact hb
    · intro sub' hsub'
      have hsub' : sub' ∈ w.monitor.dataSubs ++ [⟨className, typeName, sub⟩] := hmonitor ▸ hsub'
      rcases List.mem_append.mp hsub' with hsub' | hsub'
      · exact h.valid sub' hsub'
      · rw [List.mem_singleton.mp hsub']
        exact hsub
    · rw [hs]
      exact fun h => absurd h.symm Bool.false_ne_true

/-- `create_subscriptions`. -/
theorem wp_createSubscriptions {queues : List Bytes} (h : Accounted stage w) :
    Effect.wp (createSubscriptions queues)
      (fun _ => Accounted { stage with subscribed := true }) E w := by
  have h' : Accounted { stage with subscribed := true } w :=
    ⟨h.balanced, h.valid, fun hs => absurd hs.symm Bool.false_ne_true⟩
  unfold createSubscriptions
  rw [Effect.wp_bind]
  show Effect.wp (if w.monitor.classes = [] then _ else _) _ _ _
  split
  · exact h'
  rw [Effect.wp_bind]
  refine Effect.wp_seq (Effect.wp_forEach
    (I := fun _ => Accounted { stage with subscribed := true }) h' ?_) ?_
  · intro t _ w hw
    exact wp_subscribeData hw rfl
  · intro _ w hw
    exact hw

/-- `close` gives back every subscription of the monitor. -/
theorem wp_close (h : Accounted stage w) :
    Effect.wp close (fun _ => Accounted { stage with subscribed := false }) E w := by
  unfold close
  rw [Effect.wp_bind]
  show Effect.wp (Effect.forEach w.monitor.dataSubs _ >>= _) _ _ w
  -- the invariant: what is held beside the client is what is left of the list
  refine Effect.wp_seq (Effect.wp_forEach (I := fun (subs : List DataSub) (w : World) =>
    (∀ sub ∈ subs, sub.handles.Valid) ∧
      Balanced (subResources (subs.map DataSub.handles)) stage.client w.session)
    ⟨h.valid, h.balanced⟩ ?_) ?_
  · rintro sub subs w ⟨hvalid, hb⟩
    obtain ⟨c, hc, hp, hheld⟩ := hb.exists_holding
    rw [List.map_cons, subResources_cons, Multiset.add_assoc] at hheld
    refine Effect.wp_zoom.mpr (Effect.wp_mono
      (wp_closeSubscription (hvalid sub List.mem_cons_self) hheld) ?_ fun _ _ he => he)
    intro _ s hs
    exact ⟨fun sub' hsub' => hvalid sub' (List.mem_cons_of_mem sub hsub'), hs.balanced hc hp⟩
  · rintro _ w ⟨-, hb⟩
    exact ⟨hb, fun _ hsub => absurd hsub List.not_mem_nil, fun _ => rfl⟩

end Subscriptions

/-! ## Runs keep the invariant -/

/-- The accounts of a new client and a new monitor. -/
theorem accounted_start (supply : List Reply) (config : Configuration.MQConfig)
    (qmgrName : Bytes) :
    Accounted {}
      { session := { mqi := { supply }, client := { config } },
        monitor := { qmgrName } } := by
  have hheld : Holding (0 + MQClient.resources { config }) { config }
      { mqi := { supply }, client := { config } } := ⟨rfl, rfl⟩
  refine ⟨?_, fun _ hsub => absurd hsub List.not_mem_nil, fun _ => rfl⟩
  exact (Holding.balanced_idle hheld rfl rfl)

/-- A call that does nothing but keep the accounts, whatever it returns. -/
theorem wp_quiet {α : Type} {m : Program α} {stage : Stage} {w : World} (hm : Quiet m)
    (h : Accounted stage w) :
    Effect.wp (do let _ ← m) (fun _ => Accounted stage) (fun _ => Accounted stage) w :=
  hm.bind (fun _ => quiet_pure ()) stage w h

/-- A call of a client's method that keeps the accounts, whatever it returns. -/
theorem wp_session_discard {α : Type} {m : Method α} {stage : Stage} {w : World}
    (h : Accounted stage w)
    (hm : Effect.wp m (fun _ => Balanced w.monitor.resources stage.client)
      (fun _ => Balanced w.monitor.resources stage.client) w.session) :
    Effect.wp (do let _ ← session m) (fun _ => Accounted stage) (fun _ => Accounted stage) w :=
  Effect.wp_seq (wp_session h rfl rfl hm) fun _ _ hw => hw

/-- One call of a run. -/
theorem Op.accounted (op : Op) {stage : Stage} {w : World} (h : Accounted stage w)
    (hallowed : op.allowed stage) :
    Effect.wp op.run (fun _ => Accounted (op.returned stage))
      (fun _ => Accounted (op.raised stage)) w := by
  cases op with
  | connect => exact wp_session h rfl rfl (wp_connect h.balanced hallowed)
  | disconnect => exact wp_session h rfl rfl (wp_disconnect h.balanced)
  | openStatsQueue queueName => exact wp_session h rfl rfl (wp_openStatsQueue h.balanced hallowed)
  | openAccountingQueue queueName =>
      exact wp_session h rfl rfl (wp_openAccountingQueue h.balanced hallowed)
  | getMessage queueType => exact wp_session_discard h (wp_getMessage h.balanced)
  | getAllMessages queueType => exact wp_session_discard h (wp_getAllMessages h.balanced)
  | getQueueStats queueName => exact wp_quiet (quiet_session (steady_getQueueStats _)) h
  | getQueueInfo queueName => exact wp_quiet (quiet_session (steady_getQueueInfo _)) h
  | getQueueHandles queueName => exact wp_quiet (quiet_session (steady_getQueueHandles _)) h
  | sendPcfCommand cmd => exact wp_quiet (quiet_session (steady_sendPcfCommand _)) h
  | subscribeToTopic topicString => exact wp_session_discard h (wp_subscribeToTopic h.balanced)
  | receivePublications => exact wp_quiet (quiet_session steady_receivePublications) h
  | unsubscribeAll => exact wp_session h rfl rfl (wp_unsubscribeAll_balanced h.balanced)
  | subscribeAndGet topicString => exact wp_quiet (quiet_session (steady_subscribeAndGet _)) h
  | getMessagesFromHandle hobj maxMessages =>
      exact wp_quiet (quiet_session (steady_getMessagesFromHandle _ _)) h
  | discover => exact wp_quiet quiet_discover h
  | createSubscriptions queues => exact Effect.wp_seq (wp_createSubscriptions h) fun _ _ hw => hw
  | processPublications => exact wp_quiet quiet_processPublications h
  | close => exact wp_close h

/-- The accounts are right in every state of a run. -/
theorem Run.accounted {stage : Stage} {w : World} (hrun : Run stage w) : Accounted stage w := by
  induction hrun with
  | start supply config qmgrName => exact accounted_start supply config qmgrName
  | returned op hrun hallowed hop ih =>
      have hw := Effect.of_wp_ok (op.accounted ih hallowed) hop
      exact hw
  | raised op hrun hallowed hop ih =>
      have hw := Effect.of_wp_raised (op.accounted ih hallowed) hop
      exact hw

/-! ## The end of a run -/

/-- At the stage of a new client and monitor the fields are those of new ones. -/
theorem Accounted.idle {w : World} (h : Accounted {} w) :
    w.session.client.linked = false ∧ w.session.client.subscriptions = [] ∧
      w.monitor.dataSubs = [] := by
  have hlinked : w.session.client.linked = false :=
    congrArg Phase.connected h.balanced.phase
  exact ⟨hlinked, (h.balanced.valid.idle hlinked).2.1, h.closed rfl⟩

/-- When the client is disconnected and the monitor closed, whichever came last,
every object and the connection have been given back exactly once, and another
`disconnect` or `close` calls nothing. -/
theorem Run.settled {w : World} (hrun : Run {} w) :
    Settled (w.session.log.map MqiEvent.entry) ∧
      (Op.run .disconnect w).2.session.log = w.session.log ∧
      (Op.run .close w).2.session.log = w.session.log := by
  have h := hrun.accounted
  obtain ⟨hlinked, hsubs, hdata⟩ := h.idle
  refine ⟨?_, ?_, ?_⟩
  · apply settled_of_balance
    have hclient : w.session.client.resources = 0 := (h.balanced.valid.idle hlinked).1
    have hmonitor : w.monitor.resources = 0 := by
      unfold ResourceMonitor.resources
      rw [hdata]
      rfl
    have hbooks := h.balanced.books
    rwa [hclient, hmonitor] at hbooks
  · obtain ⟨hconn, hstats, hacct⟩ := linked_eq_false hlinked
    have hdisconnect : Mq.disconnect w.session = (.ok (), w.session) := by
      unfold Mq.disconnect
      rw [Effect.bind_of_ok (show client id w.session = (.ok w.session.client, w.session) from rfl),
        if_pos ⟨by simp [hconn], hsubs, by simp [hstats], by simp [hacct]⟩]
      rfl
    show (Mq.disconnect w.session).2.log = w.session.log
    rw [hdisconnect]
  · show (close w).2.session.log = _
    unfold close
    rw [Effect.bind_of_ok (show monitor ResourceMonitor.dataSubs w = (.ok w.monitor.dataSubs, w)
      from rfl), hdata]
    rfl

/-- The replies of a run in which the connection breaks at the first `MQGET`. -/
def brokenReplies : List Reply :=
  [{ cc := .ok }, { cc := .ok, handle := ⟨2, by decide⟩ }, { cc := .ok, attrs := [3] },
    { cc := .ok }, { cc := .ok, handle := ⟨3, by decide⟩ },
    { cc := .ok, handle := ⟨4, by decide⟩, objectName := ascii "EXPORTER.PUB.1" },
    { cc := .ok, handle := ⟨5, by decide⟩ }, { cc := .failed, rc := mqrcConnectionBroken },
    { cc := .failed }, { cc := .failed }, { cc := .failed }, { cc := .failed }]

/-- The state in which `ops` leave a new client and monitor. -/
def worldAfter (supply : List Reply) (ops : List Op) : World :=
  ops.foldl (fun w op => (op.run w).2)
    { session := { mqi := { supply }, client := { config := { queueManager := ascii "QM1" } } },
      monitor := { qmgrName := ascii "QM1" } }

/-- A client that connects, opens a queue, subscribes, loses its connection, and is
cleaned up. -/
theorem Run.settled_broken :
    Settled ((worldAfter brokenReplies
        [.connect, .openStatsQueue (ascii "STATS"), .subscribeToTopic (ascii "T"),
          .getMessage .stats, .close, .disconnect]).session.log.map MqiEvent.entry) := by
  have hrun : Run {} (worldAfter brokenReplies
      [.connect, .openStatsQueue (ascii "STATS"), .subscribeToTopic (ascii "T"),
        .getMessage .stats, .close, .disconnect]) := by
    have h₀ := Run.start brokenReplies { queueManager := ascii "QM1" } (ascii "QM1")
    have h₁ := Run.returned .connect h₀ rfl rfl
    have h₂ := Run.returned (.openStatsQueue (ascii "STATS")) h₁ rfl rfl
    have h₃ := Run.returned (.subscribeToTopic (ascii "T")) h₂ trivial rfl
    have h₄ := Run.raised (.getMessage .stats) h₃ trivial rfl
    have h₅ := Run.returned .close h₄ trivial rfl
    exact Run.returned .disconnect h₅ trivial rfl
  exact (Run.settled hrun).1

end IbmmqExporter.Monitor
