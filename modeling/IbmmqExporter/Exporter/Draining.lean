/-
  Exporter/Draining.lean --- who reads the queues of the subscriptions.

  The client has subscribed to `monitored_topics`, the monitor to the topics of its
  types.  A cycle reads the queues of the monitor's subscriptions; no one calls
  `receive_publications`, which would read those of the client's.

  WHAT THE FILE PROVES.  A cycle that returns with the client connected has read every
  queue of the monitor's to its end.  So a run drains its subscriptions if the client
  has none, and if the `MQGET` calls on the queues do not end for another reason than
  that a queue is empty.
-/
import IbmmqExporter.Exporter.Rediscovery

set_option autoImplicit false

namespace IbmmqExporter.Exporter

open Foundation Effect Mq
open Collector (Calls Objects)
open Metrics (Clock Publisher)
open Monitor (DataSub ElementMap PublicationMetric ResourceMonitor World)

/-! ## The publications -/

section Publications

/-- The samples of any messages can be taken. -/
theorem messageMetrics_returns (sub : DataSub) (emap : ElementMap) (messages : List MQMessage) :
    (Monitor.messageMetrics sub emap messages).Returns := by
  induction messages with
  | nil => exact Outcome.returns_ok _
  | cons msg messages ih =>
      obtain ⟨rest, hrest⟩ := ih
      unfold Monitor.messageMetrics
      rw [hrest]
      split
      · exact ⟨[] ++ rest, rfl⟩
      · obtain ⟨params, hparams⟩ := Monitor.parsePcfParams_returns
          (msg.data.drop (Monitor.paramsOffset 1 msg.data))
        unfold Monitor.paramsBehind
        rw [hparams]
        exact ⟨_, rfl⟩

/-- The queues of some subscriptions have been read to their ends. -/
def ReadsAll (events : List MqiEvent) (subs : List DataSub) : Prop :=
  ∀ sub ∈ subs, sub.handles.hobj ≠ 0 → ReadsOut events sub.handles.hobj 500

theorem ReadsAll.mono {events events' : List MqiEvent} {subs : List DataSub}
    (h : ReadsAll events subs) (hsub : events.Sublist events') : ReadsAll events' subs :=
  fun sub hmem hopen => (h sub hmem hopen).mono hsub

/-- `process_publications` reads every queue. -/
theorem wp_publicationsOf (subs : List DataSub) (metrics : List PublicationMetric) {w : World}
    (hconnected : w.session.client.connected = true) :
    wp (Monitor.publicationsOf subs metrics)
      (fun _ w' => ∃ new, w'.session.log = w.session.log ++ new ∧ ReadsAll new subs)
      (fun _ _ => False) w := by
  induction subs generalizing metrics w with
  | nil => exact ⟨[], (List.append_nil _).symm, fun _ h => absurd h List.not_mem_nil⟩
  | cons sub subs ih =>
      have hclient :=
        (Collector.preserves_getMessagesFromHandle sub.handles.hobj 500).within w.session
      have hread := wp_getMessagesFromHandle hconnected sub.handles.hobj 500
      unfold Monitor.publicationsOf Monitor.session Monitor.monitor
      rw [wp_bind, wp_zoom]
      refine wp_mono (wp_and hread hclient) ?_ fun _ _ h => h.1
      rintro messages s' ⟨⟨new, hlog, hout⟩, hsame⟩
      have hstill : s'.client.connected = true := by
        rw [hsame]
        exact hconnected
      -- the rest of the loop, whatever has been found so far
      have hrest (metrics : List PublicationMetric) :
          wp (Monitor.publicationsOf subs metrics)
            (fun _ w' => ∃ new, w'.session.log = w.session.log ++ new ∧ ReadsAll new (sub :: subs))
            (fun _ _ => False) { w with session := s' } := by
        refine wp_mono (ih metrics hstill) (fun _ w' hw' => ?_) fun _ _ h => h
        obtain ⟨new', hlog', hall⟩ := hw'
        refine ⟨new ++ new', ?_, ?_⟩
        · rw [hlog', hlog, List.append_assoc]
        · unfold ReadsAll
          rw [List.forall_mem_cons]
          exact ⟨fun hopen => (hout hopen).mono (List.sublist_append_left new new'),
            hall.mono (List.sublist_append_right new new')⟩
      rw [wp_bind, wp_gets]
      split
      · exact hrest _
      · next emap _ =>
          obtain ⟨found, hfound⟩ := messageMetrics_returns sub emap messages
          rw [hfound]
          exact hrest _

/-- What `process_publications` leaves, and with it `collect_publication_metrics`. -/
theorem Publishes.reads {p p' : Publisher} (h : Publishes p p')
    (hconnected : p.world.session.client.connected = true) :
    ∃ new, p'.world.session.log = p.world.session.log ++ new ∧
      ReadsAll new p.world.monitor.dataSubs := by
  have hwp : wp Monitor.processPublications
      (fun _ w' => ∃ new, w'.session.log = p.world.session.log ++ new ∧
        ReadsAll new p.world.monitor.dataSubs)
      (fun _ _ => False) p.world := by
    unfold Monitor.processPublications Monitor.monitor
    rw [wp_bind, wp_gets]
    exact wp_publicationsOf _ [] hconnected
  rcases h with ⟨pubs, hrun⟩ | ⟨e, hrun⟩
  · have hread := of_wp_ok hwp hrun
    exact hread
  · exact (of_wp_raised hwp hrun).elim

end Publications

/-! ## A cycle with a connection -/

/-- The calls that have been answered. -/
def Holdings.log (h : Holdings) : List MqiEvent := h.objects.session.log

/-- The subscriptions of the monitor. -/
def Holdings.dataSubs (h : Holdings) : List DataSub :=
  h.objects.monitor.elim [] ResourceMonitor.dataSubs

/-- The calls made since have read every queue of the monitor's. -/
def Holdings.ReadsTo (h h' : Holdings) : Prop :=
  ∃ new, h'.log = h.log ++ new ∧ ReadsAll new h.dataSubs

section Cycle

variable (cfg : Config) (clock : Clock)

/-- What a cycle reaches, it reaches by plain calls. -/
theorem Reaches.calls {o o' : Objects} (h : Reaches o o') : Calls o o' := by
  obtain ⟨requests, hrun⟩ := h
  have hrequests : Within Calls (forEach requests fun r =>
      tryCatch r.run fun _ => (return : Collector.Program Unit)) :=
    within_forEach fun r _ => (Collector.within_request r).tryCatch fun _ => within_pure ()
  exact hrequests.of_ok hrun

theorem wp_collectPublications_reads {h : Holdings} (hconnected : h.objects.isConnected = true) :
    wp (collectPublications cfg) (fun _ => h.ReadsTo) (fun _ => h.ReadsTo) h := by
  unfold wp collectPublications
  rcases hm : h.objects.monitor with _ | m
  · refine ⟨[], (List.append_nil _).symm, ?_⟩
    unfold Holdings.dataSubs
    rw [hm]
    exact fun _ hsub => absurd hsub List.not_mem_nil
  · have hsubs : h.dataSubs = m.dataSubs := by
      unfold Holdings.dataSubs
      rw [hm]
      rfl
    have hreads (p : Publisher) (hp : Publishes (h.publisher m) p) :
        h.ReadsTo (h.withPublisher p) := by
      obtain ⟨new, hlog, hall⟩ := hp.reads hconnected
      exact ⟨new, hlog, hsubs ▸ hall⟩
    have hwp := wp_collectPublicationMetrics cfg.metrics (h.publisher m)
    unfold wp at hwp
    dsimp only
    rcases hrun : Metrics.collectPublicationMetrics cfg.metrics (h.publisher m) with ⟨outcome, p⟩
    rw [hrun] at hwp
    cases outcome with
    | ok a => exact hreads p hwp
    | raised e => exact hreads p hwp
    | undefined => trivial
    | pending => trivial

/-- A cycle that ends with the client connected has read every queue of the
monitor's. -/
theorem wp_collectMetrics_reads (h : Holdings) :
    wp (collectMetrics cfg clock)
      (fun _ h' => h'.objects.isConnected = true → h.ReadsTo h') (fun _ _ => True) h := by
  have hmessages : Within (fun h h' : Holdings => Calls h.objects h'.objects)
      (collect (Metrics.collectAllMessages cfg.metrics)) :=
    Within.zoom (Collector.within_calls_metrics (Collector.within_collectAllMessages _))
      fun _ _ hcalls => hcalls
  change wp (collect (Metrics.collectAllMessages cfg.metrics) >>= fun _ =>
    behindMessages cfg clock) _ _ h
  rw [wp_bind]
  refine wp_mono (hmessages h) (fun _ h₁ hcalls₁ => ?_) fun _ _ _ => trivial
  unfold behindMessages
  rw [wp_bind]
  refine wp_mono (within_collect (within_collectGauges cfg clock) h₁) (fun _ h₂ hreach => ?_)
    fun _ _ _ => trivial
  obtain ⟨⟨new, hlog, -⟩, hmonitor⟩ := trans_of Calls hcalls₁ hreach.calls
  refine wp_bind_of_ok rfl ?_
  show wp (when (h₂.objects.isConnected = true) _ >>= _) _ _ h₂
  cases hup : h₂.objects.isConnected with
  | false =>
      rw [when_neg Bool.false_ne_true, pure_bind]
      intro hconnected
      exact absurd (hup.symm.trans hconnected) Bool.false_ne_true
  | true =>
      have hend {h₃ : Holdings} (hread : h₂.ReadsTo h₃) :
          wp (collect (Metrics.setBaselineMetrics cfg.metrics clock))
            (fun _ h' => h'.objects.isConnected = true → h.ReadsTo h') (fun _ _ => True) h₃ := by
        intro _
        obtain ⟨new', hlog', hall⟩ := hread
        refine ⟨new ++ new', ?_, ?_⟩
        · rw [← List.append_assoc]
          exact hlog'.trans (congrArg (· ++ new') hlog)
        · unfold Holdings.dataSubs at hall ⊢
          rw [← hmonitor]
          exact hall.mono (List.sublist_append_right new new')
      rw [when_pos rfl, wp_bind]
      unfold attempt
      rw [wp_tryCatch]
      exact wp_mono (wp_collectPublications_reads cfg hup) (fun _ _ => hend) fun _ _ => hend

end Cycle

/-! ## What is asked -/

/-- The calls of a step. -/
def Step.events (t : Step) : List MqiEvent :=
  t.after.holdings.log.drop t.before.holdings.log.length

/-- The queues of all subscriptions, those of the client and those of the monitor. -/
def Holdings.destinations (h : Holdings) : List MQHOBJ :=
  (h.objects.session.client.subscriptions ++ h.dataSubs.map DataSub.handles).map SubHandle.hobj

/-- The queue has been read until it was empty, or until 500 messages were found. -/
def Drained (events : List MqiEvent) (hobj : MQHOBJ) : Prop :=
  .gotNothing hobj mqrcNoMsgAvailable ∈ events ∨ 500 ≤ events.countP (MqiEvent.found hobj)

instance (events : List MqiEvent) (hobj : MQHOBJ) : Decidable (Drained events hobj) :=
  inferInstanceAs (Decidable (_ ∨ _))

/-- A call of `collect_metrics` that returns with the client connected. -/
structure Step.ReturnsUp (cfg : Config) (t : Step) (clock : Clock) : Prop where
  clock_eq : t.clock = some clock
  returns : (collectMetrics cfg clock t.before.holdings).1 = .ok ()
  up : t.after.machine.isConnected = true

/-- What is asked of a run: a call that returns with the client connected has drained
every queue of a subscription that was open before it. -/
def SubscriptionsDrained (cfg : Config) (trace : List Step) : Prop :=
  ∀ t ∈ trace, ∀ clock, t.ReturnsUp cfg clock → ∀ hobj ∈ t.before.holdings.destinations,
    hobj ≠ 0 → Drained t.events hobj

/-- An `MQGET` on the queue fails only if it is empty, and does not find an empty
message. -/
def readable (hobj : MQHOBJ) : MqiEvent → Bool
  | .gotNothing h rc => decide (h = hobj → rc = mqrcNoMsgAvailable)
  | .got h _ message => decide (h = hobj → message ≠ [])
  | _ => true

/-- The client has no subscription, and the queues of the monitor's can be read. -/
structure Step.Drainable (t : Step) : Prop where
  unsubscribed : t.before.holdings.objects.session.client.subscriptions = []
  readable : ∀ sub ∈ t.before.holdings.dataSubs, ∀ e ∈ t.events,
    readable sub.handles.hobj e = true

instance (t : Step) : Decidable t.Drainable :=
  decidable_of_iff (t.before.holdings.objects.session.client.subscriptions = [] ∧
      ∀ sub ∈ t.before.holdings.dataSubs, ∀ e ∈ t.events, readable sub.handles.hobj e = true)
    ⟨fun h => ⟨h.1, h.2⟩, fun h => ⟨h.unsubscribed, h.readable⟩⟩

section Runs

variable {cfg : Config} {clock : Clock} {t : Step}

/-- Such a call has read the queues of the monitor's to their ends. -/
theorem readsAll_of_returnsUp (hstep : t.before.step cfg t.action = some t.after)
    (h : t.ReturnsUp cfg clock) : ReadsAll t.events t.before.holdings.dataSubs := by
  have hafter : collectMetrics cfg clock t.before.holdings = (.ok (), t.after.holdings) :=
    Prod.ext h.returns (Process.step_cycle h.clock_eq hstep).symm
  have hreads := of_wp_ok (wp_collectMetrics_reads cfg clock t.before.holdings) hafter
  obtain ⟨new, hlog, hall⟩ := hreads h.up
  have hevents : t.events = new := by
    unfold Step.events
    rw [hlog, List.drop_left]
  rw [hevents]
  exact hall

/-- A queue that is read to its end is drained, if the end is that it is empty. -/
theorem drained_of_readsOut {events : List MqiEvent} {hobj : MQHOBJ} (h : ReadsOut events hobj 500)
    (hreadable : ∀ e ∈ events, readable hobj e = true) : Drained events hobj := by
  rcases h with ⟨rc, hrc⟩ | ⟨size, hsize⟩ | hcount
  · have hempty : rc = mqrcNoMsgAvailable := of_decide_eq_true (hreadable _ hrc) rfl
    exact Or.inl (hempty ▸ hrc)
  · have hnonempty : ([] : Bytes) ≠ [] := of_decide_eq_true (hreadable _ hsize) rfl
    exact absurd rfl hnonempty
  · exact Or.inr hcount

/-- A run drains its subscriptions if in front of each such call the client has none,
and the queues of the monitor's can be read. -/
theorem subscriptionsDrained_of_drainable {supply : List Reply} {actions : List Action}
    {trace : List Step}
    (hrun : history (Process.step cfg) (Process.initial cfg supply) actions = some trace)
    (hdrainable : ∀ t ∈ trace, ∀ clock, t.ReturnsUp cfg clock → t.Drainable) :
    SubscriptionsDrained cfg trace := by
  intro t ht clock hup hobj hmem hopen
  have hcond := hdrainable t ht clock hup
  have hreads := readsAll_of_returnsUp (step_of_mem hrun ht) hup
  unfold Holdings.destinations at hmem
  rw [hcond.unsubscribed, List.nil_append, List.map_map] at hmem
  obtain ⟨sub, hsub, rfl⟩ := List.mem_map.mp hmem
  exact drained_of_readsOut (hreads sub hsub hopen) (hcond.readable sub hsub)

end Runs

/-! ## A topic that is monitored -/

/-- A configuration with nothing but the messages and a topic. -/
def topicOnly : Config :=
  { queueManager := ascii "QM1", continuous := true, interval := 0, usePublications := false
    monitorAllQueues := false, useStatus := false, monitoredTopics := [ascii "PRICES"] }

/-- The run to the end of the first cycle, with a subscription to the topic. -/
def topicRun : Option (List Step) :=
  history (Process.step topicOnly)
    (Process.initial topicOnly (openingReplies ++ subscriptionReplies ++
      List.replicate 2 { cc := .failed, rc := mqrcNoMsgAvailable }))
    (List.replicate 9 (.collector {} false false))

/-- The first cycle of a queue that the monitor has subscribed to. -/
def watchedRun : Option (List Step) :=
  history (Process.step hourly) (Process.initial hourly (oneQueue (ascii "APP.A")))
    (List.replicate 9 (.collector {} false false))

/-- In a step a cycle returns with the client connected, and has not drained a queue. -/
def undrained (cfg : Config) (hobj : MQHOBJ) (t : Step) : Bool :=
  t.clock.any fun clock =>
    decide ((collectMetrics cfg clock t.before.holdings).1.Returns) &&
      t.after.machine.isConnected && decide (hobj ∈ t.before.holdings.destinations) &&
      !decide (Drained t.events hobj)

theorem watchedRun_drainable :
    (watchedRun.any fun trace => trace.all fun t => decide t.Drainable) = true := by
  decide +kernel

theorem subscriptionsDrained_watchedRun :
    ∃ trace, watchedRun = some trace ∧ SubscriptionsDrained hourly trace := by
  obtain ⟨trace, htrace, hall⟩ := (Option.any_eq_true _ _).mp watchedRun_drainable
  refine ⟨trace, htrace, subscriptionsDrained_of_drainable htrace fun t ht _ _ => ?_⟩
  exact of_decide_eq_true (List.all_eq_true.mp hall t ht)

theorem topicRun_undrained :
    (topicRun.any fun trace => trace.any (undrained topicOnly 104)) = true := by
  decide +kernel

/-- The queue of the topic is not read. -/
theorem not_subscriptionsDrained_topicRun :
    ¬ ∀ (cfg : Config) (supply : List Reply) (actions : List Action) (trace : List Step),
      history (Process.step cfg) (Process.initial cfg supply) actions = some trace →
        SubscriptionsDrained cfg trace := by
  intro h
  obtain ⟨trace, htrace, hany⟩ := (Option.any_eq_true _ _).mp topicRun_undrained
  obtain ⟨t, ht, hundrained⟩ := List.any_eq_true.mp hany
  obtain ⟨clock, hclock, hundrained⟩ := (Option.any_eq_true _ _).mp hundrained
  rw [Bool.and_eq_true, Bool.and_eq_true, Bool.and_eq_true, decide_eq_true_eq, decide_eq_true_eq,
    Bool.not_eq_true', decide_eq_false_iff_not] at hundrained
  obtain ⟨⟨⟨⟨_, hreturns⟩, hup⟩, hmem⟩, hnot⟩ := hundrained
  exact hnot (h topicOnly _ _ trace htrace t ht clock ⟨hclock, hreturns, hup⟩ 104 hmem
    (by decide))

end IbmmqExporter.Exporter
