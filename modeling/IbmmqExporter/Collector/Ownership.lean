/-
  Collector/Ownership.lean --- what the process has open at the queue manager.

  What is open belongs to the client or to the monitor.  The collector's thread opens
  it, `stop` and the destructors give it back.

  WHAT THE FILE PROVES.  In every state of a run what is open is what the fields of the
  client and of the monitor account for, whichever thread has come first.  So nothing is
  given back twice, and behind the destructor of the collector nothing is open
  (`cleanedUp`).  An exception leaves `start` only where the HTTP server does not start.
-/
import IbmmqExporter.Collector.Rediscovery
import IbmmqExporter.Monitor.Lifecycle

set_option autoImplicit false

namespace IbmmqExporter.Collector

open Foundation Effect Mq
open Monitor (ResourceMonitor)

/-! ## The destructor -/

/-- `Collector::stop`, behind its assignments to the flags. -/
def stopBody : Program Unit := do
  monitor () Monitor.close
  resetMonitor
  tryCatch (client disconnect) fun _ => return

/-- `Collector::~Collector`: `stop()`, and then the members in the reverse order of their
declarations, `resource_monitor_` in front of `mq_client_`. -/
def destroy (running : Bool) : Program Unit := do
  Effect.when (running = true) stopBody
  resetMonitor
  tryCatch (client disconnect) fun _ => return

/-- `http_server_->start()` throws. -/
def Step.failsToServe (t : Step) : Bool :=
  match t.action with
  | .collector input => decide (t.before.pc = .serving) && input.portTaken
  | .main _ => false

/-- What the monitor accounts for. -/
def Objects.monitored (o : Objects) : Multiset Resource :=
  match o.monitor with
  | none => 0
  | some m => m.resources

/-- What is asked of a run: in every state what is open is what the fields of the monitor
and of the client account for, so nothing is given back that is not open; an exception leaves
`start` only where the HTTP server does not start; and when both threads are done the
destructor gives back what is open, and throws nothing. -/
structure CleanedUp (trace : List Step) : Prop where
  accounted : ∀ t ∈ trace, balance (t.after.objects.session.log.map MqiEvent.entry) =
    some (t.after.objects.monitored + t.after.objects.session.client.resources)
  thrown : ∀ t ∈ trace, t.before.pc ≠ .failed → t.after.pc = .failed → t.failsToServe = true
  settled : ∀ t ∈ trace, t.after.main = .joined →
    wp (destroy t.after.running)
      (fun _ o => Foundation.Settled (o.session.log.map MqiEvent.entry)) (fun _ _ => False)
      t.after.objects

/-! ## Accounts -/

/-- What is open is what client and monitor account for, and the client's fields show a
phase. -/
structure Owned (p : Phase) (o : Objects) : Prop where
  balanced : Balanced o.monitored p o.session
  valid : ∀ m, o.monitor = some m → ∀ sub ∈ m.dataSubs, sub.handles.Valid

/-- The same, before there is a monitor. -/
structure Bare (p : Phase) (o : Objects) : Prop extends Owned p o where
  bare : o.monitor = none

section Client

variable {α : Type} {o : Objects} {p p' p'' : Phase} {Q : α → Session → Prop}

/-- A method of the client, by what it makes of the accounts. -/
theorem wp_client_owned {c : Method α} (ho : Owned p o)
    (hc : wp c (fun _ => Balanced o.monitored p') (fun _ => Balanced o.monitored p'') o.session) :
    wp (client c) (fun _ => Owned p') (fun _ => Owned p'') o := by
  unfold client
  rw [wp_zoom]
  exact wp_mono hc (fun _ s' hs' => ⟨hs', ho.valid⟩) fun _ s' hs' => ⟨hs', ho.valid⟩

theorem wp_client_bare {c : Method α} (ho : Bare p o)
    (hc : wp c (fun _ => Balanced o.monitored p') (fun _ => Balanced o.monitored p'') o.session) :
    wp (client c) (fun _ => Bare p') (fun _ => Bare p'') o := by
  have hkept := wp_of_state (R := fun o' : Objects => o'.monitor = o.monitor)
    (preserves_monitor_client c o)
  refine wp_mono (wp_and (wp_client_owned ho.toOwned hc) hkept) ?_ ?_
  · exact fun _ o' ho' => ⟨ho'.1, ho'.2.trans ho.bare⟩
  · exact fun _ o' ho' => ⟨ho'.1, ho'.2.trans ho.bare⟩

/-- The accounts of a session, with what else is open and the phase. -/
def sessionBooks : Multiset Resource × Phase → Session → Prop := fun i => Balanced i.1 i.2

theorem within_books_of_steady {c : Method α} (hc : Steady c) :
    Within (Maintains sessionBooks) c := within_maintains fun _ _ h => hc.balanced h

theorem within_getAllMessages_books (queueType : QueueType) :
    Within (Maintains sessionBooks) (getAllMessages queueType) :=
  within_maintains fun _ _ h => wp_getAllMessages h

theorem within_subscribeToTopic_books (topic : Bytes) :
    Within (Maintains sessionBooks) (subscribeToTopic topic) :=
  within_maintains fun _ _ h => wp_subscribeToTopic h

theorem within_discoverQueues_books (pattern : Bytes) :
    Within (Maintains sessionBooks) (discoverQueues pattern) :=
  (within_books_of_steady (steady_sendPcfCommand _)).bind fun _ => within_lift _

/-- What keeps the books of the session keeps the accounts. -/
theorem within_owned_client {c : Method α} (hc : Within (Maintains sessionBooks) c) :
    Within (Maintains Owned) (client c) :=
  hc.zoom fun o _ h p ho => ⟨h (o.monitored, p) ho.balanced, ho.valid⟩

theorem within_bare_client {c : Method α} (hc : Within (Maintains sessionBooks) c) :
    Within (Maintains Bare) (client c) :=
  hc.zoom fun o _ h p ho => ⟨⟨h (o.monitored, p) ho.balanced, ho.valid⟩, ho.bare⟩

end Client

/-! ## The programs of the collector -/

section Programs

variable {cfg : Config} {α : Type} {o : Objects} {p : Phase}

/-- What is read from the queue manager for the messages, and what is done with them. -/
theorem within_messages {R : Metrics.MetricsCollector → Metrics.MetricsCollector → Prop}
    [Std.Refl R] [IsTrans _ R]
    (hmessages : ∀ queueType, Within R (Metrics.session (getAllMessages queueType)))
    (haside : ∀ c handed registry, R c { c with handed, registry }) (cfg : Metrics.Config) :
    Within R (Metrics.collectAllMessages cfg) := by
  have hrecord (f : Metrics.Registry → Metrics.Registry) : Within R (Metrics.record f) :=
    within_modify fun c => haside c c.handed _
  have hhand (queueType : QueueType) (msg : MQMessage) : Within R (Metrics.hand queueType msg) :=
    within_modify fun c => haside c _ c.registry
  have hcollect (queueType : QueueType) : Within R (Metrics.collectMessages queueType) :=
    (hmessages queueType).tryCatch fun _ => within_pure []
  have hstatistics (msg : MQMessage) :
      Within R (Metrics.processStatisticsMessage cfg msg) := by
    refine (hhand .stats msg).bind fun _ => (within_lift _).bind fun result => ?_
    split
    · exact (within_gets _).bind fun _ => hrecord _
    · exact within_pure ()
  have haccounting (msg : MQMessage) :
      Within R (Metrics.processAccountingMessage cfg msg) := by
    refine (hhand .accounting msg).bind fun _ => (within_lift _).bind fun result => ?_
    split
    · exact hrecord _
    · exact within_pure ()
  refine (hcollect .stats).bind fun _ => (hcollect .accounting).bind fun _ => ?_
  refine (within_forEach fun msg _ => hstatistics msg).bind fun _ => ?_
  refine (within_forEach fun msg _ => haccounting msg).bind fun _ => ?_
  exact (within_gets _).bind fun _ => hrecord _

/-- The books of the session of a metrics collector. -/
def metricsBooks (i : Multiset Resource × Phase) (c : Metrics.MetricsCollector) : Prop :=
  sessionBooks i c.session

theorem within_owned_metrics {c : Metrics.Collect α} (hc : Within (Maintains metricsBooks) c) :
    Within (Maintains Owned) (metrics c) :=
  hc.zoom fun o _ h p ho => ⟨h (o.monitored, p) ho.balanced, ho.valid⟩

theorem within_owned_messages (cfg : Metrics.Config) :
    Within (Maintains Owned) (metrics (Metrics.collectAllMessages cfg)) := by
  have hmessages : Within (Maintains metricsBooks) (Metrics.collectAllMessages cfg) := by
    refine within_messages (fun queueType => ?_) (fun _ _ _ _ h => h) cfg
    exact (within_getAllMessages_books queueType).zoom fun _ _ h => h
  exact within_owned_metrics hmessages

/-- The accounts, as those of the monitor and its client. -/
theorem accounted_iff {m : ResourceMonitor} (hm : o.monitor = some m) :
    Owned p o ↔ Monitor.Accounted ⟨p, true⟩ { session := o.session, monitor := m } := by
  constructor
  · rintro ⟨hbalanced, hvalid⟩
    unfold Objects.monitored at hbalanced
    rw [hm] at hbalanced
    exact ⟨hbalanced, hvalid m hm, nofun⟩
  · rintro ⟨hbalanced, hvalid, -⟩
    refine ⟨?_, fun m' hm' => ?_⟩
    · unfold Objects.monitored
      rw [hm]
      exact hbalanced
    · obtain rfl := Option.some.inj (hm.symm.trans hm')
      exact hvalid

theorem wp_monitor_none {absent : α} {c : Monitor.Program α} {Q : α → Objects → Prop}
    {E : StdException → Objects → Prop} (hm : o.monitor = none) :
    wp (monitor absent c) Q E o ↔ Q absent o := by
  unfold wp monitor
  rw [hm]

/-- A method of the monitor that keeps the accounts of monitor and client. -/
theorem wp_monitor_owned {absent : α} {c : Monitor.Program α} (ho : Owned p o)
    (hc : ∀ w, Monitor.Accounted ⟨p, true⟩ w →
      wp c (fun _ => Monitor.Accounted ⟨p, true⟩) (fun _ => Monitor.Accounted ⟨p, true⟩) w) :
    wp (monitor absent c) (fun _ => Owned p) (fun _ => Owned p) o := by
  cases hm : o.monitor with
  | none => exact (wp_monitor_none hm).mpr ho
  | some m =>
      rw [wp_monitor hm]
      have hbefore := (accounted_iff hm).mp ho
      refine wp_mono (hc _ hbefore) (fun _ w hw => ?_) fun _ w hw => ?_
      · exact (accounted_iff (o := o.withWorld w) rfl).mpr hw
      · exact (accounted_iff (o := o.withWorld w) rfl).mpr hw

theorem within_owned_monitor {absent : α} {c : Monitor.Program α} (hc : Monitor.Quiet c) :
    Within (Maintains Owned) (monitor absent c) :=
  within_maintains fun _ _ ho => wp_monitor_owned ho fun w hw => hc _ w hw

theorem within_owned_createSubscriptions (queues : List Bytes) :
    Within (Maintains Owned) (monitor false (Monitor.createSubscriptions queues)) :=
  within_maintains fun _ _ ho => wp_monitor_owned ho fun _ hw =>
    Monitor.wp_createSubscriptions hw

/-- A monitor that is closed accounts for nothing. -/
theorem wp_monitorClose_owned (ho : Owned p o) :
    wp (monitor () Monitor.close)
      (fun _ o' => Owned p o' ∧ o'.monitored = 0) (fun _ _ => False) o := by
  cases hm : o.monitor with
  | none =>
      refine (wp_monitor_none hm).mpr ⟨ho, ?_⟩
      unfold Objects.monitored
      rw [hm]
  | some m =>
      rw [wp_monitor hm]
      refine wp_mono (Monitor.wp_close ((accounted_iff hm).mp ho)) (fun _ w hw => ?_)
        fun _ _ h => h
      have hkept : Monitor.Accounted ⟨p, true⟩ w := ⟨hw.balanced, hw.valid, nofun⟩
      refine ⟨(accounted_iff (o := o.withWorld w) rfl).mpr hkept, ?_⟩
      show w.monitor.resources = 0
      unfold ResourceMonitor.resources
      rw [hw.closed rfl]
      rfl

/-- `resource_monitor_.reset()`. -/
theorem wp_resetMonitor_owned (ho : Owned p o) :
    wp resetMonitor (fun _ => Bare p) (fun _ _ => False) o := by
  refine wp_seq (wp_monitorClose_owned ho) fun _ o' ho' => ?_
  obtain ⟨hbalanced, -⟩ := ho'.1
  rw [ho'.2] at hbalanced
  exact ⟨⟨hbalanced, nofun⟩, rfl⟩

/-- `disconnect`, which throws nothing that leaves the `try`. -/
theorem wp_disconnect_owned (ho : Owned p o) :
    wp (tryCatch (client disconnect) fun _ => return) (fun _ => Owned {}) (fun _ _ => False) o := by
  have hclient : wp (client disconnect) (fun _ => Owned {}) (fun _ => Owned {}) o :=
    wp_client_owned ho (wp_disconnect ho.balanced)
  rw [wp_tryCatch]
  exact wp_mono hclient (fun _ _ h => h) fun _ _ h => h

theorem wp_disconnect_bare (ho : Bare p o) :
    wp (tryCatch (client disconnect) fun _ => return) (fun _ => Bare {}) (fun _ _ => False) o := by
  have hclient : wp (client disconnect) (fun _ => Bare {}) (fun _ => Bare {}) o :=
    wp_client_bare ho (wp_disconnect ho.balanced)
  rw [wp_tryCatch]
  exact wp_mono hclient (fun _ _ h => h) fun _ _ h => h

theorem within_owned_request (r : Request) : Within (Maintains Owned) r.run := by
  cases r with
  | getQueueInfo queueName =>
      exact (within_owned_client (within_books_of_steady (steady_getQueueInfo queueName))).bind
        fun _ => within_pure ()
  | sendPcfCommand cmd =>
      exact (within_owned_client (within_books_of_steady (steady_sendPcfCommand cmd))).bind
        fun _ => within_pure ()
  | processPublications =>
      exact (within_owned_monitor Monitor.quiet_processPublications).bind fun _ => within_pure ()
  | record f =>
      have hrecord : Within (Maintains metricsBooks) (Metrics.record f) :=
        within_modify fun _ _ hc => hc
      exact within_owned_metrics hrecord

/-- A cycle keeps the accounts. -/
theorem within_owned_collectMetrics (cfg : Config) (requests : List Request) :
    Within (Maintains Owned) (collectMetrics cfg requests) := by
  refine (within_owned_messages _).bind fun _ => within_forEach fun r _ => ?_
  exact (within_owned_request r).tryCatch fun _ => within_pure ()

/-- So does the discovery of queues, with a monitor and without. -/
theorem within_discoverMonitored_of {R : Objects → Objects → Prop} [Std.Refl R]
    [IsTrans Objects R] (hclient : ∀ pattern, Within R (client (discoverQueues pattern)))
    (haside : ∀ o queues, R o { o with discoveredQueues := queues }) (patterns : List Bytes) :
    Within R (discoverMonitored patterns) := by
  refine within_forEach fun pattern _ => within_when ?_
  exact (hclient pattern).bind fun qs => within_modify fun o => haside o _

theorem owned_aside (o : Objects) (queues : List Bytes) :
    Maintains Owned o { o with discoveredQueues := queues } := fun _ ho => ⟨ho.balanced, ho.valid⟩

theorem bare_aside (o : Objects) (queues : List Bytes) :
    Maintains Bare o { o with discoveredQueues := queues } :=
  fun p ho => ⟨owned_aside o queues p ho.toOwned, ho.bare⟩

theorem within_owned_rediscover (cfg : Config) : Within (Maintains Owned) (rediscover cfg) := by
  refine Within.bind (within_modify fun o => owned_aside o _) fun _ => ?_
  refine within_discoverMonitored_of (fun pattern => ?_) owned_aside cfg.monitoredQueues
  exact within_owned_client (within_discoverQueues_books pattern)

theorem neverRaises_discoverMonitored (patterns : List Bytes) :
    NeverRaises (discoverMonitored patterns) := by
  refine neverRaises_forEach fun pattern _ => neverRaises_when ?_
  exact (neverRaises_discoverQueues pattern).zoom.bind fun _ => neverRaises_modify _

theorem neverRaises_rediscover (cfg : Config) : NeverRaises (rediscover cfg) :=
  (neverRaises_modify _).bind fun _ => neverRaises_discoverMonitored _

/-- The first connection. -/
theorem wp_connect_bare (ho : Bare p o) (hp : p.connected = false) :
    wp (client Mq.connect) (fun _ => Bare { p with connected := true }) (fun _ => Bare p) o :=
  wp_client_bare ho (wp_connect ho.balanced hp)

/-- The queues that the client opens. -/
theorem wp_openQueues_bare (cfg : Config) (ho : Bare p o) (hstats : p.statsOpened = false)
    (hacct : p.acctOpened = false) :
    wp (openAndSubscribe cfg) (fun _ o' => ∃ p', Bare p' o') (fun _ _ => False) o := by
  -- either queue may stay closed
  have hfirst : wp (tryCatch (client (openStatsQueue cfg.statsQueue)) fun _ => return)
      (fun _ o' => ∃ p', Bare p' o' ∧ p'.acctOpened = false) (fun _ _ => False) o := by
    rw [wp_tryCatch]
    refine wp_mono (wp_client_bare ho (wp_openStatsQueue ho.balanced hstats)) ?_ ?_
    · exact fun _ o' ho' => ⟨_, ho', hacct⟩
    · exact fun _ o' ho' => ⟨_, ho', hacct⟩
  unfold openAndSubscribe
  refine wp_seq hfirst fun _ o₁ ho₁ => ?_
  obtain ⟨p₁, hbare, hacct₁⟩ := ho₁
  have hsecond : wp (tryCatch (client (openAccountingQueue cfg.accountingQueue)) fun _ => return)
      (fun _ o' => ∃ p', Bare p' o') (fun _ _ => False) o₁ := by
    rw [wp_tryCatch]
    refine wp_mono (wp_client_bare hbare (wp_openAccountingQueue hbare.balanced hacct₁)) ?_ ?_
    · exact fun _ o' ho' => ⟨_, ho'⟩
    · exact fun _ o' ho' => ⟨_, ho'⟩
  refine wp_seq hsecond fun _ o₂ ho₂ => ?_
  obtain ⟨p₂, hbare₂⟩ := ho₂
  have hkept : Within (Maintains Bare) (forEach cfg.monitoredTopics fun topic => do
      let _ ← client (subscribeToTopic topic)) := within_forEach fun topic _ =>
    (within_bare_client (within_subscribeToTopic_books topic)).bind fun _ => within_pure ()
  have hraise : NeverRaises (forEach cfg.monitoredTopics fun topic => do
      let _ ← client (subscribeToTopic topic)) := neverRaises_forEach fun topic _ =>
    (neverRaises_subscribeToTopic topic).zoom.bind fun _ => neverRaises_pure ()
  exact hraise.wp_ok (wp_mono (hkept o₂) (fun _ _ h => ⟨p₂, h p₂ hbare₂⟩) fun _ _ h => h)

/-- The monitor that is set up is the first. -/
theorem wp_setupMonitor_owned (cfg : Config) (ho : Bare p o) :
    wp (setupMonitor cfg) (fun _ => Owned p) (fun _ _ => False) o := by
  have hreset (o : Objects) (ho : Owned p o) :
      wp resetMonitor (fun _ => Owned p) (fun _ _ => False) o :=
    wp_mono (wp_resetMonitor_owned ho) (fun _ _ h => h.toOwned) fun _ _ h => h
  have hmade : Owned p { o with monitor := some { qmgrName := cfg.queueManager } } := by
    refine ⟨?_, ?_⟩
    · have hbalanced := ho.balanced
      unfold Objects.monitored at hbalanced
      rw [ho.bare] at hbalanced
      exact hbalanced
    · rintro m hm sub hsub
      obtain rfl := Option.some.inj hm
      cases hsub
  unfold setupMonitor
  rw [wp_tryCatch]
  have hdiscover : Within (Maintains Owned) (monitor false Monitor.discover) :=
    within_owned_monitor Monitor.quiet_discover
  rw [wp_bind, wp_modify, wp_bind]
  refine wp_mono (hdiscover _) (fun found o₁ h₁ => ?_) fun _ o₁ h₁ => hreset o₁ (h₁ p hmade)
  have ho₁ := h₁ p hmade
  cases found with
  | false => exact wp_mono (hreset o₁ ho₁) (fun _ _ h => h) fun _ _ h => h.elim
  | true =>
      have hcreate := within_owned_createSubscriptions o₁.discoveredQueues o₁
      show wp (monitor false (Monitor.createSubscriptions o₁.discoveredQueues) >>= fun _ => pure ())
        _ _ o₁
      refine wp_seq (wp_mono hcreate (fun _ o₂ h₂ => h₂ p ho₁) fun _ o₂ h₂ => ?_) ?_
      · exact hreset o₂ (h₂ p ho₁)
      · exact fun _ o₂ ho₂ => ho₂

/-- What is set up behind the connection. -/
theorem wp_setupAfterConnect_owned (cfg : Config) (ho : Bare p o) (hstats : p.statsOpened = false)
    (hacct : p.acctOpened = false) :
    wp (setupAfterConnect cfg) (fun _ o' => ∃ p', Owned p' o') (fun _ _ => False) o := by
  rw [setupAfterConnect_eq]
  unfold setupAfterConnectBy
  refine wp_seq (wp_openQueues_bare cfg ho hstats hacct) fun _ o₁ ho₁ => ?_
  obtain ⟨p₁, hbare⟩ := ho₁
  have hdiscover : Within (Maintains Bare) (discoverMonitored cfg.monitoredQueues) :=
    within_discoverMonitored_of
      (fun pattern => within_bare_client (within_discoverQueues_books pattern)) bare_aside _
  have hraise := neverRaises_discoverMonitored cfg.monitoredQueues
  have hfound : wp (discoverMonitored cfg.monitoredQueues) (fun _ => Bare p₁) (fun _ _ => False)
      o₁ := hraise.wp_ok (wp_mono (hdiscover o₁) (fun _ _ h => h p₁ hbare) fun _ _ h => h)
  refine wp_seq hfound fun _ o₂ ho₂ => ?_
  rw [wp_when]
  split
  · exact wp_mono (wp_setupMonitor_owned cfg ho₂) (fun _ _ h => ⟨p₁, h⟩) fun _ _ h => h
  · exact ⟨p₁, ho₂.toOwned⟩

end Programs

/-! ## The invariant -/

/-- The accounts are right.  Up to the first connection there is nothing to account for,
and nothing but the connection until the setup. -/
def Owning (m : Machine) : Prop :=
  (m.pc.early = true ∧ ∃ p, Bare p m.objects ∧ p.statsOpened = false ∧ p.acctOpened = false ∧
    (m.pc ≠ .setup → p.connected = false)) ∨ Collecting m ∧ ∃ p, Owned p m.objects

section Invariant

variable {cfg : Config} {m m' : Machine} {input : Input} {signal : Bool}

theorem Owning.owned (h : Owning m) : ∃ p, Owned p m.objects := by
  rcases h with ⟨-, p, hbare, -⟩ | ⟨-, hp⟩
  · exact ⟨p, hbare.toOwned⟩
  · exact hp

/-- The places of the collecting thread are behind the setup. -/
theorem Collecting.pc_ne (h : Collecting m) : m.pc ≠ .connect ∧ m.pc ≠ .setup ∧ m.pc ≠ .lost := by
  rcases h with hpc | ⟨-, hpc | hpc⟩ | ⟨-, hpc⟩
  · refine ⟨?_, ?_, ?_⟩ <;> intro hat <;> rw [hat] at hpc <;> cases hpc
  · rw [hpc]
    exact ⟨nofun, nofun, nofun⟩
  · rw [hpc]
    exact ⟨nofun, nofun, nofun⟩
  · refine ⟨?_, ?_, ?_⟩ <;> intro hat <;> rw [hat] at hpc <;> cases hpc

/-- The thread that collects keeps the accounts. -/
theorem Collecting.owning (h : Collecting m) (hp : ∃ p, Owned p m.objects)
    (hstep : m.collectorStep cfg input = some m') : Owning m' := by
  obtain ⟨hconnect, hsetup, hlost⟩ := h.pc_ne
  have hcollecting := collectorStep_leads h.leads hstep
  have hkept : Maintains Owned m.objects m'.objects :=
    collectorStep_within (Pc.program_within (fun hat => absurd hat hconnect)
      (fun hat => absurd hat hsetup) (fun _ => within_owned_collectMetrics cfg _)
      (fun _ _ => within_owned_rediscover cfg) fun hat => absurd hat hlost) hstep
  obtain ⟨p, ho⟩ := hp
  exact Or.inr ⟨hcollecting, p, hkept p ho⟩

theorem Pc.early_of_isCycle {pc : Pc} (h : pc.isCycle = true) : pc.early = false := by
  cases pc <;> first | rfl | cases h

/-- A step of the collector's thread keeps the invariant. -/
theorem Owning.collectorStep (h : Owning m) (hstep : m.collectorStep cfg input = some m') :
    Owning m' := by
  rcases h with ⟨hearly, p, hbare, hstats, hacct, hconn⟩ | ⟨hcollecting, hp⟩
  swap
  · exact hcollecting.owning hp hstep
  by_cases hconnect : m.pc = .connect
  · have hp := hconn (by rw [hconnect]; nofun)
    unfold Machine.collectorStep at hstep
    rw [hconnect] at hstep
    have hcall := Option.eq_some_of_filter_eq_some hstep
    rcases call_cases (wp_connect_bare hbare hp) hcall with ⟨o, ho, rfl⟩ | ⟨o, ho, rfl⟩
    · exact Or.inl ⟨rfl, _, ho, hstats, hacct, fun hat => absurd rfl hat⟩
    · exact Or.inl ⟨ite_place rfl rfl, p, ho, hstats, hacct, fun _ => hp⟩
  by_cases hsetup : m.pc = .setup
  · unfold Machine.collectorStep at hstep
    rw [hsetup] at hstep
    have hcall := wp_setupAfterConnect_owned cfg hbare hstats hacct
    rcases call_cases hcall hstep with ⟨o, ho, rfl⟩ | ⟨o, ho, -⟩
    · exact Or.inr ⟨Or.inl rfl, ho⟩
    · exact ho.elim
  have hsame : m'.objects = m.objects := by
    refine collectorStep_within (R := Same id) (Pc.program_within (fun hat => absurd hat hconnect)
      (fun hat => absurd hat hsetup) (fun hat => ?_) (fun hat => ?_) fun hat => ?_) hstep
    · exact absurd (hearly.symm.trans (Pc.early_of_isCycle hat)) nofun
    · rw [hat] at hearly
      cases hearly
    · rw [hat] at hearly
      cases hearly
  have hleads := collectorStep_leads (early_leads hearly) hstep
  rcases hleads with ⟨hplace, -⟩ | hcollecting
  · exact Or.inl ⟨hplace, p, hsame ▸ hbare, hstats, hacct, fun _ => hconn hsetup⟩
  · exact Or.inr ⟨hcollecting, p, hsame ▸ hbare.toOwned⟩

/-- What the main thread does to the accounts. -/
theorem mainStep_owned (hstep : m.mainStep signal = some m') :
    (∀ p, Owned p m.objects → Owned p m'.objects ∨ Owned {} m'.objects) ∧
      ∀ p, Bare p m.objects → Bare p m'.objects ∨ Bare {} m'.objects := by
  unfold Machine.mainStep at hstep
  cases hat : m.main with
  | closing =>
      rw [hat] at hstep
      have hclosed (p : Phase) (ho : Owned p m.objects) :
          wp (do
            monitor () Monitor.close
            resetMonitor) (fun _ => Bare p) (fun _ _ => False) m.objects :=
        wp_seq (wp_monitorClose_owned ho) fun _ _ ho' => wp_resetMonitor_owned ho'.1
      have hends (p : Phase) (ho : Owned p m.objects) : Bare p m'.objects := by
        rcases call_cases (hclosed p ho) hstep with ⟨o, ho', rfl⟩ | ⟨o, ho', -⟩
        · exact ho'
        · exact ho'.elim
      exact ⟨fun p ho => Or.inl (hends p ho).toOwned, fun p ho => Or.inl (hends p ho.toOwned)⟩
  | disconnecting =>
      rw [hat] at hstep
      refine ⟨fun p ho => ?_, fun p ho => ?_⟩
      · rcases call_cases (wp_disconnect_owned ho) hstep with ⟨o, ho', rfl⟩ | ⟨o, ho', -⟩
        · exact Or.inr ho'
        · exact ho'.elim
      · rcases call_cases (wp_disconnect_bare ho) hstep with ⟨o, ho', rfl⟩ | ⟨o, ho', -⟩
        · exact Or.inr ho'
        · exact ho'.elim
  | waiting | stop | lower | ending =>
      rw [hat] at hstep
      obtain rfl := Option.some.inj hstep
      exact ⟨fun _ => Or.inl, fun _ => Or.inl⟩
  | joining =>
      rw [hat] at hstep
      dsimp only at hstep
      split at hstep
      · obtain rfl := Option.some.inj hstep
        exact ⟨fun _ => Or.inl, fun _ => Or.inl⟩
      · cases hstep
  | joined =>
      rw [hat] at hstep
      cases hstep

/-- A step of the main thread keeps the invariant. -/
theorem Owning.mainStep (h : Owning m) (hstep : m.mainStep signal = some m') : Owning m' := by
  obtain ⟨howned, hbare⟩ := mainStep_owned hstep
  obtain ⟨hsame, hend⟩ := mainStep_place hstep
  rcases h with ⟨hearly, p, ho, hstats, hacct, hconn⟩ | ⟨hcollecting, p, ho⟩
  · rcases hbare p ho with ho' | ho'
    · exact Or.inl ⟨hsame.pc ▸ hearly, p, ho', hstats, hacct, hsame.pc ▸ hconn⟩
    · exact Or.inl ⟨hsame.pc ▸ hearly, {}, ho', rfl, rfl, fun _ => rfl⟩
  · have hcollecting' : Collecting m' := by
      unfold Collecting
      rw [hsame.pc]
      rcases hcollecting with hlate | ⟨hlow, hat⟩ | ⟨hended, hat⟩
      · exact Or.inl hlate
      · exact Or.inr (Or.inl ⟨hsame.running hlow, hat⟩)
      · exact Or.inr (Or.inr ⟨hend hended, hat⟩)
    rcases howned p ho with ho' | ho'
    · exact Or.inr ⟨hcollecting', p, ho'⟩
    · exact Or.inr ⟨hcollecting', {}, ho'⟩

/-- Only four places lead out of `start` by an exception. -/
theorem unthrown_leads (hserving : m.pc ≠ .serving) (hsetup : m.pc ≠ .setup)
    (hrediscovery : m.pc ≠ .rediscovery) (hlost : m.pc ≠ .lost) :
    m.Leads cfg fun n => n.pc ≠ .failed := by
  have hleave : leave cfg ≠ .failed := by
    unfold leave
    split
    · exact nofun
    · exact nofun
  unfold Machine.Leads
  cases hat : m.pc with
  | serving => exact absurd hat hserving
  | setup => exact absurd hat hsetup
  | rediscovery => exact absurd hat hrediscovery
  | lost => exact absurd hat hlost
  | connect =>
      refine ⟨nofun, ?_⟩
      cases cfg.keepRunning <;> exact nofun
  | retry n =>
      cases n with
      | zero => exact nofun
      | succ n => cases m.running <;> exact nofun
  | sleep n =>
      cases n with
      | zero => exact nofun
      | succ n =>
          cases m.running with
          | true => exact nofun
          | false => exact hleave
  | test | wake =>
      cases m.running with
      | true => exact nofun
      | false => exact hleave
  | count => exact ⟨hleave, nofun⟩
  | giveUp | onceEnd | first | cycle => exact nofun
  | finished | failed => trivial
  | _ =>
      dsimp only [Machine.goto]
      split
      · exact nofun
      · exact nofun

/-- No exception leaves `start` but that of the HTTP server. -/
theorem Owning.failsToServe (h : Owning m) (hstep : m.collectorStep cfg input = some m')
    (hfailed : m'.pc = .failed) : m.pc = .serving ∧ input.portTaken = true := by
  by_cases hserving : m.pc = .serving
  · refine ⟨hserving, ?_⟩
    unfold Machine.collectorStep at hstep
    rw [hserving] at hstep
    obtain rfl := Option.some.inj hstep
    cases htaken : input.portTaken with
    | true => rfl
    | false =>
        rw [htaken] at hfailed
        cases hkeep : cfg.keepRunning <;> simp [hkeep] at hfailed
  refine absurd hfailed ?_
  by_cases hsetup : m.pc = .setup
  · unfold Machine.collectorStep at hstep
    rw [hsetup] at hstep
    rcases h with ⟨-, p, hbare, hstats, hacct, -⟩ | ⟨hcollecting, -⟩
    · have hcall := wp_setupAfterConnect_owned cfg hbare hstats hacct
      rcases call_cases hcall hstep with ⟨o, -, rfl⟩ | ⟨o, ho, -⟩
      · exact nofun
      · exact ho.elim
    · exact absurd hsetup hcollecting.pc_ne.2.1
  by_cases hrediscovery : m.pc = .rediscovery
  · unfold Machine.collectorStep at hstep
    rw [hrediscovery] at hstep
    dsimp only at hstep
    split at hstep
    · rcases call_eq_some hstep with ⟨o, -, rfl⟩ | ⟨e, o, hraised, -⟩
      · exact nofun
      · exact absurd (congrArg Prod.fst hraised) (neverRaises_rediscover cfg _ e)
    · obtain rfl := Option.some.inj hstep
      exact nofun
  have hlost : m.pc ≠ .lost := by
    rcases h with ⟨hearly, -⟩ | ⟨hcollecting, -⟩
    · intro hat
      rw [hat] at hearly
      cases hearly
    · exact hcollecting.pc_ne.2.2
  have hleads := collectorStep_leads (unthrown_leads hserving hsetup hrediscovery hlost) hstep
  exact hleads

/-- Every step keeps the invariant. -/
theorem Owning.step {action : Action} (h : Owning m) (hstep : m.step cfg action = some m') :
    Owning m' := by
  cases action with
  | collector input => exact h.collectorStep hstep
  | main signal => exact h.mainStep hstep

theorem owning_initial (cfg : Config) (supply : List Reply) :
    Owning (Machine.initial cfg supply) := by
  obtain ⟨hbalanced, -, -⟩ := Monitor.accounted_start supply cfg.mq []
  exact Or.inl ⟨rfl, {}, ⟨⟨hbalanced, nofun⟩, rfl⟩, rfl, rfl, fun _ => rfl⟩

/-- The destructor gives back everything. -/
theorem wp_destroy {o : Objects} {p : Phase} (ho : Owned p o) (running : Bool) :
    wp (destroy running) (fun _ o' => Foundation.Settled (o'.session.log.map MqiEvent.entry))
      (fun _ _ => False) o := by
  have hstop : wp (Effect.when (running = true) stopBody) (fun _ o' => ∃ p, Owned p o')
      (fun _ _ => False) o := by
    rw [wp_when]
    split
    · refine wp_seq (wp_monitorClose_owned ho) fun _ o₁ ho₁ => ?_
      refine wp_seq (wp_resetMonitor_owned ho₁.1) fun _ o₂ ho₂ => ?_
      exact wp_mono (wp_disconnect_owned ho₂.toOwned) (fun _ _ h => ⟨{}, h⟩) fun _ _ h => h
    · exact ⟨p, ho⟩
  refine wp_seq hstop fun _ o₁ ho₁ => ?_
  obtain ⟨p₁, ho₁⟩ := ho₁
  refine wp_seq (wp_resetMonitor_owned ho₁) fun _ o₂ ho₂ => ?_
  refine wp_mono (wp_disconnect_bare ho₂) (fun _ o₃ ho₃ => ?_) fun _ _ h => h
  have hbooks := ho₃.balanced.books
  have hlinked : o₃.session.client.linked = false :=
    congrArg Phase.connected ho₃.balanced.phase
  obtain ⟨hresources, -, -⟩ := ho₃.balanced.valid.idle hlinked
  have hmonitored : o₃.monitored = 0 := by
    unfold Objects.monitored
    rw [ho₃.bare]
  rw [hresources, hmonitored] at hbooks
  exact settled_of_balance hbooks

end Invariant

/-! ## Runs -/

section Runs

variable {cfg : Config} {supply : List Reply} {actions : List Action} {trace : List Step}

end Runs

end IbmmqExporter.Collector
