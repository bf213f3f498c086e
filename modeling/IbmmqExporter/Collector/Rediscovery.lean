/-
  Collector/Rediscovery.lean --- the subscriptions of the monitor in a run.

  The monitor subscribes for the queues that `setup_after_connect` has discovered.  A
  rediscovery fills the list of the queues anew, and makes and ends no subscription.

  WHAT THE FILE PROVES.  Behind a setup in which the queue manager has refused no call
  the queues with a live subscription are those in the list.  They stay so until the
  end of the run, if and only if every rediscovery finds the queues of the list.
-/
import IbmmqExporter.Collector.Queues

set_option autoImplicit false

namespace IbmmqExporter.Collector

open Foundation Effect Mq
open Monitor (QueueTopic Named Watched queueTopics)

/-! ## Calls that leave the subscriptions alone -/

/-- The calls that have been made are plain, and the monitor is as it was. -/
def Calls (o o' : Objects) : Prop := Plain o.session o'.session ∧ o'.monitor = o.monitor

instance : Std.Refl Calls := ⟨fun o => ⟨refl_of Plain o.session, rfl⟩⟩

instance : IsTrans Objects Calls :=
  ⟨fun _ _ _ h h' => ⟨trans_of Plain h.1 h'.1, h'.2.trans h.2⟩⟩

/-- The same of the monitor and its client. -/
def Reads (w w' : Monitor.World) : Prop :=
  Plain w.session w'.session ∧ w'.monitor = w.monitor

instance : Std.Refl Reads := ⟨fun w => ⟨refl_of Plain w.session, rfl⟩⟩

instance : IsTrans Monitor.World Reads :=
  ⟨fun _ _ _ h h' => ⟨trans_of Plain h.1 h'.1, h'.2.trans h.2⟩⟩

/-- The same of the metrics collector. -/
abbrev Collects : Metrics.MetricsCollector → Metrics.MetricsCollector → Prop :=
  Appends Metrics.MetricsCollector.log fun e => e.isPlain = true

section Calls

variable {α : Type}

theorem within_calls_client {c : Method α} (hc : Within Plain c) : Within Calls (client c) :=
  hc.zoom fun _ _ h => ⟨h, rfl⟩

theorem within_calls_metrics {c : Metrics.Collect α} (hc : Within Collects c) :
    Within Calls (metrics c) := hc.zoom fun _ _ h => ⟨h, rfl⟩

theorem within_collects_session {c : Method α} (hc : Within Plain c) :
    Within Collects (Metrics.session c) := hc.zoom fun _ _ h => h

theorem within_collects_record (f : Metrics.Registry → Metrics.Registry) :
    Within Collects (Metrics.record f) := within_modify fun m => refl_of Collects m

theorem within_calls_modify {f : Objects → Objects} (hmetrics : ∀ o, (f o).metrics = o.metrics)
    (hmonitor : ∀ o, (f o).monitor = o.monitor) :
    Within Calls (modify f : Program Unit) := by
  refine within_modify fun o => ⟨?_, hmonitor o⟩
  unfold Objects.session
  rw [hmetrics]
  exact refl_of Plain o.metrics.session

/-- The messages of a cycle. -/
theorem within_collectAllMessages (cfg : Metrics.Config) :
    Within Collects (Metrics.collectAllMessages cfg) := by
  have hcollect (queueType : QueueType) : Within Collects (Metrics.collectMessages queueType) :=
    (within_collects_session (within_getAllMessages queueType)).tryCatch fun _ => within_pure []
  have hhand (queueType : QueueType) (msg : MQMessage) :
      Within Collects (Metrics.hand queueType msg) := within_modify fun m => refl_of Collects m
  have hstatistics (msg : MQMessage) :
      Within Collects (Metrics.processStatisticsMessage cfg msg) := by
    refine (hhand .stats msg).bind fun _ => (within_lift _).bind fun result => ?_
    split
    · exact (within_gets _).bind fun plat => within_collects_record _
    · exact within_pure ()
  have haccounting (msg : MQMessage) :
      Within Collects (Metrics.processAccountingMessage cfg msg) := by
    refine (hhand .accounting msg).bind fun _ => (within_lift _).bind fun result => ?_
    split
    · exact within_collects_record _
    · exact within_pure ()
  refine (hcollect .stats).bind fun statsMsgs => (hcollect .accounting).bind fun acctMsgs => ?_
  refine (within_forEach fun msg _ => hstatistics msg).bind fun _ => ?_
  refine (within_forEach fun msg _ => haccounting msg).bind fun _ => ?_
  exact (within_gets _).bind fun plat => within_collects_record _

/-- The objects behind a method of the monitor. -/
def Objects.withWorld (w : Monitor.World) (o : Objects) : Objects :=
  { o.withSession w.session with monitor := some w.monitor }

/-- A method of the monitor, if there is one. -/
theorem wp_monitor {absent : α} {c : Monitor.Program α} {o : Objects}
    {m : Monitor.ResourceMonitor} (hm : o.monitor = some m) {Q : α → Objects → Prop}
    {E : StdException → Objects → Prop} :
    wp (monitor absent c) Q E o ↔
      wp c (fun a w => Q a (o.withWorld w)) (fun e w => E e (o.withWorld w))
        { session := o.session, monitor := m } := by
  unfold wp monitor
  rw [hm]
  dsimp only
  rcases c { session := o.session, monitor := m } with ⟨outcome, w⟩
  cases outcome <;> rfl

/-- `process_publications` reads, and leaves the monitor as it is. -/
theorem within_processPublications :
    Within Calls (monitor [] Monitor.processPublications) := by
  have hloop (subs : List Monitor.DataSub) (found : List Monitor.PublicationMetric) :
      Within Reads (Monitor.publicationsOf subs found) := by
    induction subs generalizing found with
    | nil => exact within_pure found
    | cons sub subs ih =>
        have hmessages : Within Reads
            (Monitor.session (getMessagesFromHandle sub.handles.hobj 500)) :=
          (within_getMessagesFromHandle _ _).zoom fun _ _ h => ⟨h, rfl⟩
        refine hmessages.bind fun messages => (within_gets _).bind fun typeElements => ?_
        split
        · exact ih _
        · exact (within_lift _).bind fun _ => ih _
  have hread : Within Reads Monitor.processPublications :=
    (within_gets _).bind fun subs => hloop subs []
  intro o
  cases hm : o.monitor with
  | none =>
      unfold wp monitor
      rw [hm]
      exact refl_of Calls o
  | some m =>
      rw [wp_monitor hm]
      refine wp_mono (hread _) (fun _ w hw => ?_) fun _ w hw => ?_
      · exact ⟨hw.1, (congrArg some hw.2).trans hm.symm⟩
      · exact ⟨hw.1, (congrArg some hw.2).trans hm.symm⟩

theorem within_request (r : Request) : Within Calls r.run := by
  cases r with
  | getQueueInfo queueName =>
      exact (within_calls_client (within_getQueueInfo queueName)).bind fun _ => within_pure ()
  | sendPcfCommand cmd =>
      exact (within_calls_client (within_sendPcfCommand cmd)).bind fun _ => within_pure ()
  | processPublications => exact within_processPublications.bind fun _ => within_pure ()
  | record f => exact within_calls_metrics (within_collects_record f)

/-- A cycle makes and ends no subscription. -/
theorem within_collectMetrics (cfg : Config) (requests : List Request) :
    Within Calls (collectMetrics cfg requests) := by
  refine (within_calls_metrics (within_collectAllMessages _)).bind fun _ => ?_
  exact within_forEach fun r _ => (within_request r).tryCatch fun _ => within_pure ()

theorem within_discoverMonitored (patterns : List Bytes) :
    Within Calls (discoverMonitored patterns) := by
  refine within_forEach fun pattern _ => within_when ?_
  refine (within_calls_client (within_discoverQueues pattern)).bind fun qs => ?_
  exact within_calls_modify (fun _ => rfl) fun _ => rfl

/-- Nor does a rediscovery. -/
theorem within_rediscover (cfg : Config) : Within Calls (rediscover cfg) := by
  refine Within.bind (within_calls_modify ?_ ?_) fun _ => within_discoverMonitored _
  · exact fun _ => rfl
  · exact fun _ => rfl

end Calls

/-! ## Behind the setup -/

/-- For every type with a topic for each queue, the queues with a live subscription are
those in the list. -/
def Objects.Matched (o : Objects) : Prop :=
  ∀ m, o.monitor = some m → ∀ k ∈ queueTopics m.classes, ∀ q,
    Watched (liveSubscriptions o.session.log) m k q ↔ q ∈ o.discoveredQueues

/-- The queue manager has refused no call, gives the live subscriptions different
handles, and names the types apart. -/
structure Objects.Served (o : Objects) : Prop where
  accepted : .refused ∉ o.session.log
  distinct : ((liveSubscriptions o.session.log).map Prod.fst).Nodup
  named : ∀ m, o.monitor = some m → Named m.classes

instance (o : Objects) : Decidable o.Served :=
  decidable_of_iff (.refused ∉ o.session.log ∧
      ((liveSubscriptions o.session.log).map Prod.fst).Nodup ∧ ∀ m ∈ o.monitor, Named m.classes)
    ⟨fun h => ⟨h.1, h.2.1, h.2.2⟩, fun h => ⟨h.accepted, h.distinct, h.named⟩⟩

section Setup

variable {o o' : Objects}

theorem matched_of_none (h : o.monitor = none) : o.Matched := by
  intro m hm
  rw [h] at hm
  cases hm

/-- Who makes plain calls keeps the match, as long as the list has the same queues. -/
theorem Objects.Matched.of_calls (h : o.Matched) (hcalls : Calls o o')
    (hqueues : ∀ q, q ∈ o'.discoveredQueues ↔ q ∈ o.discoveredQueues) : o'.Matched := by
  intro m hm k hk q
  rw [hcalls.2] at hm
  rw [liveSubscriptions_of_plain hcalls.1, h m hm k hk q, hqueues q]

theorem neverRaises_monitorClose : NeverRaises (monitor () Monitor.close) := by
  have hclose : NeverRaises Monitor.close := by
    refine (neverRaises_gets _).bind fun subs => ?_
    refine (neverRaises_forEach fun sub _ => ?_).bind fun _ => neverRaises_modify _
    exact (neverRaises_closeSubscription sub.handles).zoom
  intro o e
  unfold monitor
  split
  · exact nofun
  · exact hclose _ e

theorem wp_resetMonitor (o : Objects) :
    wp resetMonitor (fun _ o' => o'.monitor = none) (fun _ _ => False) o := by
  unfold resetMonitor
  rw [wp_bind]
  exact neverRaises_monitorClose.wp_state rfl

/-- The monitor that is set up has subscribed for the queues in the list. -/
theorem wp_setupMonitor_matched (cfg : Config) (o : Objects) :
    wp (setupMonitor cfg) (fun _ o' => o'.Served → o'.Matched) (fun _ _ => True) o := by
  have hreset (o : Objects) :
      wp resetMonitor (fun _ o' => o'.Served → o'.Matched) (fun _ _ => True) o :=
    wp_mono (wp_resetMonitor o) (fun _ _ h _ => matched_of_none h) fun _ _ h => h.elim
  unfold setupMonitor
  rw [wp_tryCatch]
  refine wp_mono (Q := fun _ o' => o'.Served → o'.Matched) (E := fun _ _ => True) ?_
    (fun _ _ h => h) fun _ o' _ => hreset o'
  rw [wp_bind, wp_modify, wp_bind, wp_monitor rfl]
  refine wp_mono (Monitor.wp_discover_live preserves_subscribeAndGet) (fun found w hw => ?_)
    fun _ _ h => h
  obtain ⟨hnone, hconnected⟩ := hw
  rw [wp_ite]
  split
  · next hfound =>
      rw [wp_bind, wp_gets, wp_bind, wp_monitor rfl]
      refine wp_mono (Monitor.wp_createSubscriptions_live (hconnected hfound) hnone)
        (fun _ w' hw' => ?_) fun _ _ h => h.elim
      intro hserved m hm k hk q
      obtain rfl := Option.some.inj hm
      exact Monitor.watched_iff (hw' hserved.accepted) hserved.distinct
        (hserved.named _ rfl) hk q
  · exact hreset _

theorem preserves_monitor_client {α : Type} (c : Method α) :
    Preserves Objects.monitor (client c) := fun _ => rfl

/-- Only `setup_after_connect` makes a monitor, and not without `use_publications`. -/
theorem wp_setupAfterConnect_matched (cfg : Config) (o : Objects) :
    wp (setupAfterConnect cfg)
      (fun _ o' => (cfg.usePublications = false → o.monitor = none → o'.monitor = none) ∧
        (cfg.usePublications = true → o'.Served → o'.Matched))
      (fun _ o' => cfg.usePublications = false → o.monitor = none → o'.monitor = none) o := by
  have hopen : Preserves Objects.monitor (openAndSubscribe cfg) := by
    refine ((preserves_monitor_client _).tryCatch fun _ => preserves_pure ()).bind fun _ => ?_
    refine ((preserves_monitor_client _).tryCatch fun _ => preserves_pure ()).bind fun _ => ?_
    exact preserves_forEach fun topic _ =>
      (preserves_monitor_client _).bind fun _ => preserves_pure ()
  have hdiscover : Preserves Objects.monitor (discoverMonitored cfg.monitoredQueues) := by
    refine preserves_forEach fun pattern _ => preserves_when ?_
    exact (preserves_monitor_client _).bind fun qs => preserves_modify fun _ => rfl
  rw [setupAfterConnect_eq]
  unfold setupAfterConnectBy
  rw [wp_bind]
  refine wp_mono (hopen.within o) (fun _ o₁ h₁ => ?_) fun _ o₁ h₁ _ hnone => h₁.trans hnone
  rw [wp_bind]
  refine wp_mono (hdiscover.within o₁) (fun _ o₂ h₂ => ?_)
    fun _ o₂ h₂ _ hnone => h₂.trans (h₁.trans hnone)
  rw [wp_when]
  split
  · next huse =>
      have hon {p : Prop} (hoff : cfg.usePublications = false) : p :=
        absurd (huse.symm.trans hoff) (by decide)
      exact wp_mono (wp_setupMonitor_matched cfg o₂) (fun _ o' h => ⟨hon, fun _ => h⟩)
        fun _ _ _ => hon
  · next huse =>
      exact ⟨fun _ hnone => h₂.trans (h₁.trans hnone), fun hon => absurd hon huse⟩

end Setup

/-! ## What a step does to the objects -/

section Steps

variable {cfg : Config} {m m' : Machine} {input : Input} {signal : Bool}

/-- The main thread leaves the objects alone, or the monitor is none behind its step, or
it disconnects. -/
theorem mainStep_objects (hstep : m.mainStep signal = some m') :
    (m'.objects = m.objects ∧ (m'.main = .disconnecting → False)) ∨ m'.objects.monitor = none ∨
      (m.main = .disconnecting ∧ m'.main ≠ .disconnecting ∧
        m'.objects.monitor = m.objects.monitor) := by
  unfold Machine.mainStep at hstep
  cases hat : m.main with
  | closing =>
      rw [hat] at hstep
      have hclose : wp (do
          monitor () Monitor.close
          resetMonitor) (fun _ o => o.monitor = none) (fun _ _ => False) m.objects := by
        rw [wp_bind]
        exact neverRaises_monitorClose.wp_state (wp_resetMonitor _)
      rcases call_cases hclose hstep with ⟨o, ho, rfl⟩ | ⟨o, ho, -⟩
      · exact Or.inr (Or.inl ho)
      · exact ho.elim
  | disconnecting =>
      rw [hat] at hstep
      have hdisconnect : Preserves Objects.monitor
          (tryCatch (client disconnect) fun _ => (return : Program Unit)) :=
        (preserves_monitor_client disconnect).tryCatch fun _ => preserves_pure ()
      rcases call_cases (hdisconnect.within m.objects) hstep with ⟨o, ho, rfl⟩ | ⟨o, ho, rfl⟩
      · exact Or.inr (Or.inr ⟨rfl, nofun, ho⟩)
      · exact Or.inr (Or.inr ⟨rfl, nofun, ho⟩)
  | joining =>
      rw [hat] at hstep
      dsimp only at hstep
      split at hstep
      · obtain rfl := Option.some.inj hstep
        exact Or.inl ⟨rfl, nofun⟩
      · cases hstep
  | joined =>
      rw [hat] at hstep
      cases hstep
  | waiting | stop =>
      rw [hat] at hstep
      obtain rfl := Option.some.inj hstep
      refine Or.inl ⟨rfl, ?_⟩
      dsimp only
      split
      · exact nofun
      · exact nofun
  | _ =>
      rw [hat] at hstep
      obtain rfl := Option.some.inj hstep
      exact Or.inl ⟨rfl, nofun⟩

/-- The places that a thread does not come to once `running_` is not set. -/
def Pc.barred : Pc → Bool
  | .start | .serving | .rediscovery => true
  | _ => false

theorem low_step (hlow : m.running = false) (hunstarted : m.pc.unstarted = false)
    (hstep : m.collectorStep cfg input = some m') : m'.running = false ∧ m'.pc.barred = false := by
  have hleads : m.Leads cfg fun n => n.running = false ∧ n.pc.barred = false := by
    unfold Machine.Leads
    cases hat : m.pc with
    | start | serving =>
        rw [hat] at hunstarted
        cases hunstarted
    | connect => exact ⟨⟨hlow, rfl⟩, ⟨hlow, ite_place rfl rfl⟩⟩
    | setup | rediscovery | lost => exact ⟨⟨hlow, rfl⟩, ⟨hlow, rfl⟩⟩
    | first | cycle | onceEnd => exact ⟨hlow, rfl⟩
    | wake =>
        rw [hlow]
        exact ⟨hlow, leave_place rfl rfl⟩
    | count => exact ⟨⟨rfl, leave_place rfl rfl⟩, ⟨hlow, rfl⟩⟩
    | retry n =>
        cases n with
        | zero => exact ⟨hlow, rfl⟩
        | succ n => exact ⟨hlow, ite_place rfl rfl⟩
    | sleep n =>
        cases n with
        | zero => exact ⟨hlow, rfl⟩
        | succ n => exact ⟨hlow, ite_place rfl (leave_place rfl rfl)⟩
    | test => exact ⟨hlow, ite_place rfl (leave_place rfl rfl)⟩
    | giveUp => exact ⟨rfl, rfl⟩
    | finished | failed => trivial
    | _ => exact ⟨hlow, ite_place rfl rfl⟩
  have hsteered := collectorStep_leads hleads hstep
  exact hsteered

end Steps

/-! ## The invariant -/

/-- The thread does not come to a rediscovery any more. -/
def Retired (m : Machine) : Prop :=
  m.pc = .failed ∨ (m.running = false ∧ m.pc.barred = false)

/-- The invariant of a run. -/
structure Watching (cfg : Config) (m : Machine) : Prop where
  setsUp : SetsUpOnce m
  agreeing : Agreeing m
  unused : cfg.usePublications = false → m.objects.monitor = none
  closed : m.main = .disconnecting → m.pc ≠ .rediscovery ∨ m.objects.monitor = none
  matched : Retired m ∨ m.objects.Matched

section Invariant

variable {cfg : Config} {m m' : Machine} {input : Input} {signal : Bool}

theorem SetsUpOnce.pc_ne_lost (h : SetsUpOnce m) : m.pc ≠ .lost := by
  intro hat
  rcases h with ⟨hpc, -⟩ | hpc | ⟨-, hpc | hpc⟩ | ⟨-, hpc⟩
  all_goals
    rw [hat] at hpc
    cases hpc

theorem Agreeing.low_of_disconnecting (h : Agreeing m) (hat : m.main = .disconnecting) :
    m.running = false ∧ m.pc.unstarted = false := by
  refine ⟨h.lowered (hat ▸ rfl), Bool.eq_false_of_not_eq_true fun hpc => ?_⟩
  have hstopping := (h.unstarted hpc).2
  rw [hat] at hstopping
  cases hstopping

theorem Pc.unstarted_of_barred {pc : Pc} (h : pc.barred = false) : pc.unstarted = false := by
  cases pc with
  | start => cases h
  | serving => cases h
  | _ => rfl

theorem Pc.barred_of_unstarted {pc : Pc} (h : pc.unstarted = false) (hne : pc ≠ .rediscovery) :
    pc.barred = false := by
  cases pc with
  | start => cases h
  | serving => cases h
  | rediscovery => exact absurd rfl hne
  | _ => rfl

theorem Retired.collectorStep (h : Retired m) (hstep : m.collectorStep cfg input = some m') :
    Retired m' := by
  rcases h with hat | ⟨hlow, hpc⟩
  · unfold Machine.collectorStep at hstep
    rw [hat] at hstep
    cases hstep
  · exact Or.inr (low_step hlow (Pc.unstarted_of_barred hpc) hstep)

/-- Away from the setup a step of the collector makes plain calls. -/
theorem collectorStep_calls (hsetup : m.pc ≠ .setup) (hlost : m.pc ≠ .lost)
    (hstep : m.collectorStep cfg input = some m') : Calls m.objects m'.objects := by
  refine collectorStep_within (Pc.program_within ?_ ?_ ?_ ?_ ?_) hstep
  · exact fun _ => within_calls_client within_connect
  · exact fun hat => absurd hat hsetup
  · exact fun _ => within_collectMetrics cfg _
  · exact fun _ _ => within_rediscover cfg
  · exact fun hat => absurd hat hlost

/-- A step of the collector's thread keeps the invariant, if the setup is served and a
rediscovery leaves a match. -/
theorem Watching.collectorStep (h : Watching cfg m) (hstep : m.collectorStep cfg input = some m')
    (hserved : m'.objects.Served)
    (hfinds : Step.rediscovers cfg ⟨.collector input, m, m'⟩ = true → m'.objects.Matched) :
    Watching cfg m' := by
  have hmain := collectorStep_main hstep
  have hclosed : m'.main = .disconnecting → m'.pc ≠ .rediscovery ∨ m'.objects.monitor = none := by
    intro hat
    rw [hmain] at hat
    obtain ⟨hlow, hunstarted⟩ := h.agreeing.low_of_disconnecting hat
    refine Or.inl fun hpc => ?_
    have hbarred := (low_step hlow hunstarted hstep).2
    rw [hpc] at hbarred
    cases hbarred
  have hkept := h.setsUp.collectorStep hstep
  by_cases hsetup : m.pc = .setup
  · have hcall := hstep
    unfold Machine.collectorStep at hcall
    rw [hsetup] at hcall
    have hwp := wp_setupAfterConnect_matched cfg m.objects
    rcases call_cases hwp hcall with ⟨o, ho, rfl⟩ | ⟨o, ho, rfl⟩
    · refine ⟨hkept.1, h.agreeing.collectorStep hstep, fun hoff => ho.1 hoff (h.unused hoff),
        hclosed, Or.inr ?_⟩
      cases huse : cfg.usePublications with
      | false => exact matched_of_none (ho.1 huse (h.unused huse))
      | true => exact ho.2 huse hserved
    · exact ⟨hkept.1, h.agreeing.collectorStep hstep, fun hoff => ho hoff (h.unused hoff),
        hclosed, Or.inl (Or.inl rfl)⟩
  · have hcalls := collectorStep_calls hsetup h.setsUp.pc_ne_lost hstep
    refine ⟨hkept.1, h.agreeing.collectorStep hstep, fun hoff => hcalls.2.trans (h.unused hoff),
      hclosed, ?_⟩
    rcases h.matched with hretired | hmatched
    · exact Or.inl (hretired.collectorStep hstep)
    · refine Or.inr ?_
      cases hre : Step.rediscovers cfg ⟨.collector input, m, m'⟩ with
      | true => exact hfinds hre
      | false =>
          refine hmatched.of_calls hcalls fun q => ?_
          rw [collectorStep_discovered hsetup hre hstep]

/-- So does a step of the main thread. -/
theorem Watching.mainStep (h : Watching cfg m) (hstep : m.mainStep signal = some m') :
    Watching cfg m' := by
  obtain ⟨hsetsUp, -⟩ := h.setsUp.mainStep hstep
  obtain ⟨hagreeing, -⟩ := h.agreeing.mainStep hstep
  have hplace := (mainStep_place hstep).1
  have hretired : Retired m → Retired m' := by
    unfold Retired
    rw [hplace.pc]
    exact Or.imp_right fun hlow => ⟨hplace.running hlow.1, hlow.2⟩
  rcases mainStep_objects hstep with ⟨hobjects, hmain⟩ | hnone | ⟨hat, hmain, hmonitor⟩
  · refine ⟨hsetsUp, hagreeing, fun hoff => ?_, fun hat => (hmain hat).elim, ?_⟩
    · rw [hobjects]
      exact h.unused hoff
    · rw [hobjects]
      exact h.matched.imp_left hretired
  · exact ⟨hsetsUp, hagreeing, fun _ => hnone, fun _ => Or.inr hnone,
      Or.inr (matched_of_none hnone)⟩
  · refine ⟨hsetsUp, hagreeing, fun hoff => hmonitor.trans (h.unused hoff),
      fun hat => absurd hat hmain, ?_⟩
    rcases h.closed hat with hpc | hnone
    · obtain ⟨hlow, hunstarted⟩ := h.agreeing.low_of_disconnecting hat
      exact Or.inl (hretired (Or.inr ⟨hlow, Pc.barred_of_unstarted hunstarted hpc⟩))
    · exact Or.inr (matched_of_none (hmonitor.trans hnone))

theorem keptWhen_watching (cfg : Config) :
    KeptWhen (Machine.step cfg)
      (fun t : Step => t.after.objects.Served ∧
        (t.rediscovers cfg = true → t.after.objects.Matched))
      (Watching cfg) := by
  rintro m action m' hinv hstep ⟨hserved, hfinds⟩
  cases action with
  | collector input => exact hinv.collectorStep hstep hserved hfinds
  | main signal => exact hinv.mainStep hstep

theorem watching_initial (cfg : Config) (supply : List Reply) :
    Watching cfg (Machine.initial cfg supply) where
  setsUp := Or.inl ⟨rfl, rfl⟩
  agreeing := (stopInv_initial cfg supply).agreeing
  unused _ := rfl
  closed := nofun
  matched := Or.inr (matched_of_none rfl)

/-- The queues that a rediscovery finds are those of the list, or there is no type with
a topic for each queue. -/
def Step.FindsSame (cfg : Config) (t : Step) : Prop :=
  t.rediscovers cfg = true → ∀ m, t.before.objects.monitor = some m →
    queueTopics m.classes ≠ [] →
      ∀ q, q ∈ (t.answers cfg).flatten ↔ q ∈ t.before.objects.discoveredQueues

/-- Behind a rediscovery the subscriptions match the list if and only if it has found
the same queues. -/
theorem rediscovery_matched_iff {t : Step} (hre : t.rediscovers cfg = true)
    (hinv : Watching cfg t.before) (hstep : t.before.step cfg t.action = some t.after) :
    t.after.objects.Matched ↔ t.FindsSame cfg := by
  have hfound := rediscovery_discovered hre hstep
  rcases t with ⟨action, m, m'⟩
  unfold Step.FindsSame
  unfold Step.rediscovers at hre
  cases action with
  | main signal => cases hre
  | collector input =>
      obtain ⟨hpc, hdue⟩ := of_decide_eq_true hre
      dsimp only at hpc hfound ⊢
      have hcalls : Calls m.objects m'.objects :=
        collectorStep_calls (hpc ▸ nofun) (hpc ▸ nofun) hstep
      have hmatched : m.objects.Matched := by
        rcases hinv.matched with (hfailed | ⟨-, hbarred⟩) | hmatched
        · cases hpc.symm.trans hfailed
        · dsimp only at hbarred
          rw [hpc] at hbarred
          cases hbarred
        · exact hmatched
      unfold Objects.Matched
      rw [hcalls.2, liveSubscriptions_of_plain hcalls.1, hfound]
      constructor
      · intro h _ monitor hmonitor hsome q
        obtain ⟨k, hk⟩ := List.exists_mem_of_ne_nil _ hsome
        rw [← h monitor hmonitor k hk q, hmatched monitor hmonitor k hk q]
      · intro h monitor hmonitor k hk q
        rw [hmatched monitor hmonitor k hk q]
        exact (h hre monitor hmonitor (List.ne_nil_of_mem hk) q).symm

end Invariant

end IbmmqExporter.Collector
