/-
  Exporter/Cycle.lean --- the whole of `collect_metrics`, and the exporter with it.

  `Collector/Machine.lean` leaves open what a cycle does behind the messages.  Here it
  is what `collect_metrics` does: the queues and their handles, the statuses, the
  publications, and the time of the collection.

  WHAT THE FILE PROVES.  A cycle makes calls that the machine there may make, so every
  step of the exporter is a step of the machine, and what holds in the runs of the
  machine holds in those of the exporter.
-/
import IbmmqExporter.Collector.Queues
import IbmmqExporter.Foundation.Course
import IbmmqExporter.Metrics.Publications
import IbmmqExporter.Metrics.Status

set_option autoImplicit false

namespace IbmmqExporter.Exporter

open Foundation Mq
open Metrics (Collect Clock PublicationFamilies Publisher)
open Collector (Machine Objects Pc QueueConfig Request Program)

/-! ## The cycle -/

/-- The configuration with the part that only the inquiries about statuses read. -/
structure Config extends queues : QueueConfig where
  useStatus : Bool := true
  monitoredChannels : List Bytes := []
  monitoredSubscriptions : List Bytes := []

/-- The part that the messages and the gauges need. -/
def Config.metrics (cfg : Config) : Metrics.Config := cfg.queues.base.toConfig

/-- The objects of the collector, and the families that `collect_publication_metrics`
has registered. -/
structure Holdings where
  objects : Objects := {}
  families : PublicationFamilies := ∅

/-- A `try` whose handler writes to the log. -/
def attempt {σ : Type} (c : Effect σ StdException Unit) : Effect σ StdException Unit :=
  Effect.tryCatch c fun _ => return

/-- The inquiries about statuses in `collect_metrics`. -/
def collectStatuses (cfg : Config) (clock : Clock) (cachedQueues : List Bytes) :
    Collect Unit := do
  attempt (Metrics.collectQmgrStatus cfg.metrics clock)
  attempt (Metrics.collectChannelStatus cfg.metrics cfg.monitoredChannels)
  attempt (Metrics.collectTopicStatus cfg.metrics cfg.monitoredTopics)
  attempt (Metrics.collectSubStatus cfg.metrics cfg.monitoredSubscriptions)
  attempt (Metrics.collectClusterStatus cfg.metrics)
  attempt (Metrics.collectQueueOnlineStatus cfg.metrics cachedQueues)
  let platform ← Effect.gets fun m => m.session.client.platform
  Effect.when (platform = Platform.zos) (attempt (Metrics.collectUsageStatus cfg.metrics))

/-- The part of `collect_metrics` behind the messages and in front of the
publications. -/
def collectGauges (cfg : Config) (clock : Clock) : Collect Unit := do
  let cachedQueues ← Metrics.getQueuesToMonitor cfg.queues.selection
  attempt (Metrics.collectAndUpdateQueueMetrics cfg.metrics cachedQueues)
  attempt (Metrics.collectAndUpdateHandleMetrics cfg.metrics cachedQueues)
  let connected ← Metrics.clientConnected
  Effect.when (cfg.useStatus = true ∧ connected = true) (collectStatuses cfg clock cachedQueues)

/-- A method of `MetricsCollector` that leaves the monitor alone. -/
def collect {α : Type} (c : Collect α) : Effect Holdings StdException α :=
  Effect.zoom Holdings.objects (fun o h => { h with objects := o }) (Collector.metrics c)

/-- What `collect_publication_metrics` works on. -/
def Holdings.publisher (h : Holdings) (m : Monitor.ResourceMonitor) : Publisher :=
  { world := { session := h.objects.session, monitor := m }, families := h.families,
    registry := h.objects.metrics.registry }

/-- Put it in its place. -/
def Holdings.withPublisher (h : Holdings) (p : Publisher) : Holdings :=
  { objects :=
      { h.objects with
        metrics :=
          { h.objects.metrics with session := p.world.session, registry := p.registry }
        monitor := some p.world.monitor }
    families := p.families }

/-- `collect_publication_metrics`, if there is a monitor. -/
def collectPublications (cfg : Config) : Effect Holdings StdException Unit := fun h =>
  match h.objects.monitor with
  | none => (.ok (), h)
  | some m =>
      let run := Metrics.collectPublicationMetrics cfg.metrics (h.publisher m)
      (run.1, h.withPublisher run.2)

/-- `MetricsCollector::collect_metrics`. -/
def collectMetrics (cfg : Config) (clock : Clock) : Effect Holdings StdException Unit := do
  collect (Metrics.collectAllMessages cfg.metrics)
  collect (collectGauges cfg clock)
  let connected ← collect Metrics.clientConnected
  Effect.when (connected = true) (attempt (collectPublications cfg))
  collect (Metrics.setBaselineMetrics cfg.metrics clock)

/-! ## The exporter -/

/-- The machine, and the families that have been registered. -/
structure Process where
  machine : Machine := {}
  families : PublicationFamilies := ∅

/-- The process as `run_collector` makes it, and the answers to come. -/
def Process.initial (cfg : Config) (supply : List Reply) : Process :=
  { machine := .initial cfg.base supply }

/-- What a cycle works on. -/
def Process.holdings (p : Process) : Holdings := ⟨p.machine.objects, p.families⟩

/-- Where the thread goes on behind a cycle, if it is at one. -/
def behindCycle (cfg : Config) : Pc → Option Pc
  | .first => some .test
  | .cycle => some .count
  | .once => some (if cfg.keepRunning then .onceEnd else .finished)
  | _ => none

/-- `Collector::collect_cycle`. -/
def Process.collectCycle (cfg : Config) (clock : Clock) (next : Pc) (p : Process) :
    Option Process :=
  let run := collectMetrics cfg clock p.holdings
  let cycled : Option Machine := p.machine.call (fun _ => (run.1, run.2.objects))
    (fun m =>
      { m with totalCollections := m.totalCollections + 1, firstCollection := true, pc := next })
    fun m =>
      { m with
        errorCount := m.errorCount + 1
        connectedQmgr := if m.isConnected then m.connectedQmgr else false
        pc := next }
  cycled.map fun m => { machine := m, families := run.2.families }

/-- What the environment chooses for a step of the exporter: what the clock says, whether
the time for a rediscovery is up and whether the port is taken, or the shutdown signal. -/
inductive Action where
  | collector (clock : Clock) (due portTaken : Bool)
  | main (signal : Bool)

/-- A step of one of the threads. -/
def Process.step (cfg : Config) (p : Process) : Action → Option Process
  | .collector clock due portTaken =>
      match behindCycle cfg p.machine.pc with
      | some next => p.collectCycle cfg clock next
      | none =>
          (p.machine.collectorStep cfg.base { due, portTaken }).map fun m =>
            { p with machine := m }
  | .main signal => (p.machine.mainStep signal).map fun m => { p with machine := m }

/-! ## What a cycle reaches -/

/-- Some requests lead from objects to objects. -/
def Reaches (o o' : Objects) : Prop :=
  ∃ requests : List Request,
    Effect.forEach requests (fun r => Effect.tryCatch r.run fun _ => return) o = (.ok (), o')

/-- The same, of the metrics collector. -/
abbrev Serves : Metrics.MetricsCollector → Metrics.MetricsCollector → Prop :=
  Effect.Part Objects.metrics (fun m o => { o with metrics := m }) Reaches

/-- The same, of the client. -/
abbrev Answers : Session → Session → Prop :=
  Effect.Part Metrics.MetricsCollector.session (fun s m => { m with session := s }) Serves

instance : Std.Refl Reaches where
  refl _ := ⟨[], rfl⟩

instance : IsTrans Objects Reaches where
  trans := by
    rintro o o' o'' ⟨requests, hrun⟩ ⟨requests', hrun'⟩
    refine ⟨requests ++ requests', ?_⟩
    rw [Effect.forEach_append, Effect.bind_of_ok hrun]
    exact hrun'

instance : Std.Refl Serves := Effect.part_refl fun _ => rfl

instance : IsTrans Metrics.MetricsCollector Serves :=
  Effect.part_trans (fun _ _ => rfl) fun _ _ _ => rfl

instance : Std.Refl Answers := Effect.part_refl fun _ => rfl

instance : IsTrans Session Answers := Effect.part_trans (fun _ _ => rfl) fun _ _ _ => rfl

section Requests

variable {α : Type}

/-- A request that returns or raises an exception. -/
theorem reaches_request {r : Request} {o o' : Objects}
    (h : r.run o = (.ok (), o') ∨ ∃ e, r.run o = (.raised e, o')) : Reaches o o' := by
  refine ⟨[r], ?_⟩
  rcases h with h | ⟨e, h⟩
  · exact Effect.bind_of_ok (Effect.tryCatch_of_ok h)
  · exact Effect.bind_of_ok (Effect.tryCatch_of_raised h)

/-- A method of the client that is a request. -/
theorem within_answers {r : Request} {c : Method α}
    (hr : r.run = do let _ ← Collector.client c) : Effect.Within Answers c := by
  intro s
  unfold Effect.wp
  rcases hc : c s with ⟨outcome, s'⟩
  have hclient (o : Objects) (ho : o.session = s) :
      Collector.client c o = (outcome, o.withSession s') := by
    unfold Collector.client
    rw [Effect.zoom_apply, ho, hc]
  cases outcome with
  | ok a =>
      rintro m rfl o rfl
      refine reaches_request (r := r) (.inl ?_)
      rw [hr]
      exact Effect.bind_of_ok (hclient o rfl)
  | raised e =>
      rintro m rfl o rfl
      refine reaches_request (r := r) (.inr ⟨e, ?_⟩)
      rw [hr]
      exact Effect.bind_of_raised (hclient o rfl)
  | undefined => trivial
  | pending => trivial

theorem within_record (f : Metrics.Registry → Metrics.Registry) :
    Effect.Within Serves (Metrics.record f) := by
  refine Effect.within_modify ?_
  rintro m o rfl
  exact reaches_request (r := .record f) (.inl rfl)

theorem within_getQueueInfo (queueName : Bytes) :
    Effect.Within Answers (getQueueInfo queueName) :=
  within_answers (r := .getQueueInfo queueName) rfl

theorem within_sendPcfCommand (cmd : Bytes) : Effect.Within Answers (sendPcfCommand cmd) :=
  within_answers (r := .sendPcfCommand cmd) rfl

theorem within_discoverQueues (pattern : Bytes) :
    Effect.Within Answers (discoverQueues pattern) :=
  (within_sendPcfCommand _).bind fun _ => Effect.within_lift _

theorem within_inquireStatus (cmd : Bytes) (parse : List Bytes → Pcf.Parse (List α)) :
    Effect.Within Answers (inquireStatus cmd parse) :=
  (within_sendPcfCommand cmd).bind fun _ => Effect.within_lift _

theorem within_session {c : Method α} (hc : Effect.Within Answers c) :
    Effect.Within Serves (Metrics.session c) := hc.part

end Requests

section Gauges

open Effect

variable {α : Type}

theorem within_attempt {σ : Type} {R : σ → σ → Prop} [Std.Refl R] [IsTrans σ R]
    {c : Effect σ StdException Unit} (hc : Within R c) : Within R (attempt c) :=
  hc.tryCatch fun _ => within_pure ()

/-- The selection of queues keeps to what the discovery keeps to. -/
theorem within_selectQueues {σ : Type} {R : σ → σ → Prop} [Std.Refl R] [IsTrans σ R]
    {discover : Bytes → Effect σ StdException (List Bytes)} (hd : ∀ p, Within R (discover p))
    (cfg : Metrics.SelectionConfig) : Within R (Metrics.selectQueues discover cfg) := by
  have hloop (patterns found : List Bytes) :
      Within R (Metrics.discoverPatterns discover patterns found) := by
    induction patterns generalizing found with
    | nil => exact within_pure found
    | cons pattern patterns ih =>
        unfold Metrics.discoverPatterns
        exact within_ite (ih found) ((hd pattern).bind fun qs => ih _)
  refine within_ite (within_pure _) ((hloop _ _).bind fun allQueues => ?_)
  refine within_ite (within_pure _) ((hd _).bind fun allQueues => ?_)
  exact within_ite (within_pure _) (within_pure _)

theorem within_clientConnected : Within Serves Metrics.clientConnected := within_gets _

theorem within_platform : Within Serves Metrics.platform := within_gets _

/-- A loop over queues that inquires about each of them. -/
theorem within_queueInfos {queues : List Bytes}
    {write : Bytes → QueueInfo → Metrics.Registry → Metrics.Registry} :
    Within Serves (forEach queues fun qname => do
      let info ← Metrics.session (getQueueInfo qname)
      match info with
      | none => return
      | some info => Metrics.record (write qname info)) := by
  refine within_forEach fun qname _ => ?_
  refine (within_session (within_getQueueInfo qname)).bind fun info => ?_
  cases info with
  | none => exact within_pure ()
  | some info => exact within_record _

theorem within_collectAndUpdateQueueMetrics (cfg : Metrics.Config) (queues : List Bytes) :
    Within Serves (Metrics.collectAndUpdateQueueMetrics cfg queues) := by
  refine within_clientConnected.bind fun connected => within_ite (within_pure ()) ?_
  exact within_platform.bind fun plat => within_queueInfos

theorem within_collectAndUpdateHandleMetrics (cfg : Metrics.Config) (queues : List Bytes) :
    Within Serves (Metrics.collectAndUpdateHandleMetrics cfg queues) := by
  refine within_clientConnected.bind fun connected => within_ite (within_pure ()) ?_
  exact within_ite (within_pure ()) within_queueInfos

/-- An inquiry whose answer is written to the registry. -/
theorem within_inquiry (cmd : Bytes) (parse : List Bytes → Pcf.Parse (List α))
    {k : List α → Collect Unit} (hk : ∀ statuses, Within Serves (k statuses)) :
    Within Serves (Metrics.session (inquireStatus cmd parse) >>= k) :=
  (within_session (within_inquireStatus cmd parse)).bind hk

theorem within_collectPatterns {patterns : List Bytes} {cmd : Bytes → Bytes}
    {parse : List Bytes → Pcf.Parse (List α)} {write : Metrics.Registry → α → Metrics.Registry} :
    Within Serves
      (Metrics.collectPatterns patterns (fun pattern => inquireStatus (cmd pattern) parse)
        write) :=
  within_forEach fun _ _ => within_inquiry _ _ fun _ => within_record _

theorem within_collectQmgrStatus (cfg : Metrics.Config) (clock : Clock) :
    Within Serves (Metrics.collectQmgrStatus cfg clock) := by
  refine (within_session ((within_inquireStatus _ _).map _)).bind fun status => ?_
  refine within_platform.bind fun plat => ?_
  cases status with
  | none => exact within_record _
  | some status => exact within_record _

theorem within_collectStatuses (cfg : Config) (clock : Clock) (cachedQueues : List Bytes) :
    Within Serves (collectStatuses cfg clock cachedQueues) := by
  refine (within_attempt (within_collectQmgrStatus _ _)).bind fun _ => ?_
  refine (within_attempt ?_).bind fun _ => (within_attempt ?_).bind fun _ =>
    (within_attempt ?_).bind fun _ => (within_attempt ?_).bind fun _ =>
    (within_attempt ?_).bind fun _ => (within_gets _).bind fun platform =>
    within_when (within_attempt ?_)
  · exact within_platform.bind fun plat => within_collectPatterns
  · exact within_ite (within_pure ()) (within_platform.bind fun plat => within_collectPatterns)
  · exact within_ite (within_pure ()) (within_platform.bind fun plat => within_collectPatterns)
  · exact within_inquiry _ _ fun clusters => within_platform.bind fun plat => within_record _
  · refine within_clientConnected.bind fun connected => within_ite (within_pure ()) ?_
    refine within_ite (within_pure ()) (within_platform.bind fun plat => ?_)
    exact within_inquiry _ _ fun statuses => within_record _
  · refine within_platform.bind fun plat => within_inquiry _ _ fun bps => ?_
    refine (within_record _).bind fun _ => within_inquiry _ _ fun pss => ?_
    exact within_record _

theorem within_collectGauges (cfg : Config) (clock : Clock) :
    Within Serves (collectGauges cfg clock) := by
  have hdiscover (pattern : Bytes) : Within Serves (Metrics.session (discoverQueues pattern)) :=
    within_session (within_discoverQueues pattern)
  refine (within_selectQueues hdiscover _).bind fun cachedQueues => ?_
  refine (within_attempt (within_collectAndUpdateQueueMetrics _ _)).bind fun _ => ?_
  refine (within_attempt (within_collectAndUpdateHandleMetrics _ _)).bind fun _ => ?_
  refine within_clientConnected.bind fun connected => within_when ?_
  exact within_collectStatuses cfg clock cachedQueues

theorem within_setBaselineMetrics (cfg : Metrics.Config) (clock : Clock) :
    Within Serves (Metrics.setBaselineMetrics cfg clock) :=
  (within_record _).bind fun _ => within_platform.bind fun _ => within_record _

end Gauges

/-! ## The publications -/

section Publications

open Effect

variable {cfg : Config} {h : Holdings} {p p' : Publisher}

theorem world_foldl_recordPublication (cfg : Metrics.Config) (plat : Bytes) (p : Publisher)
    (pubs : List Monitor.PublicationMetric) :
    (pubs.foldl (Metrics.recordPublication cfg plat) p).world = p.world := by
  induction pubs generalizing p with
  | nil => rfl
  | cons pm pubs ih =>
      rw [List.foldl_cons, ih]
      rfl

/-- What `process_publications` leaves is left by `collect_publication_metrics`. -/
def Publishes (p p' : Publisher) : Prop :=
  (∃ pubs, Monitor.processPublications p.world = (.ok pubs, p'.world)) ∨
    ∃ e, Monitor.processPublications p.world = (.raised e, p'.world)

theorem wp_collectPublicationMetrics (cfg : Metrics.Config) (p : Publisher) :
    wp (Metrics.collectPublicationMetrics cfg) (fun _ => Publishes p) (fun _ => Publishes p) p := by
  unfold Metrics.collectPublicationMetrics
  rw [wp_bind, wp_zoom]
  unfold wp
  rcases hrun : Monitor.processPublications p.world with ⟨outcome, w⟩
  cases outcome with
  | ok pubs =>
      refine (wp_ite ..).mpr ?_
      split
      · exact .inl ⟨pubs, hrun⟩
      · rw [wp_bind, wp_gets, wp_modify]
        refine .inl ⟨pubs, ?_⟩
        rw [world_foldl_recordPublication]
        exact hrun
  | raised e => exact .inr ⟨e, hrun⟩
  | undefined => trivial
  | pending => trivial

/-- The publications are a request, and what is written to the registry another. -/
theorem reaches_publications {m : Monitor.ResourceMonitor} (hm : h.objects.monitor = some m)
    (hp : Publishes (h.publisher m) p) : Reaches h.objects (h.withPublisher p).objects := by
  let published : Objects :=
    { h.objects.withSession p.world.session with monitor := some p.world.monitor }
  have hread : Reaches h.objects published := by
    refine reaches_request (r := .processPublications) ?_
    have hmonitor (outcome : Outcome StdException (List Monitor.PublicationMetric))
        (hrun : Monitor.processPublications (h.publisher m).world = (outcome, p.world)) :
        Collector.monitor [] Monitor.processPublications h.objects = (outcome, published) := by
      unfold Collector.monitor
      rw [hm]
      unfold Holdings.publisher at hrun
      dsimp only at hrun ⊢
      rw [hrun]
    rcases hp with ⟨pubs, hrun⟩ | ⟨e, hrun⟩
    · exact .inl (bind_of_ok (hmonitor _ hrun))
    · exact .inr ⟨e, bind_of_raised (hmonitor _ hrun)⟩
  have hwrite : Reaches published (h.withPublisher p).objects :=
    reaches_request (r := .record fun _ => p.registry) (.inl rfl)
  exact trans_of Reaches hread hwrite

/-- The same, of the holdings. -/
def Attains (h h' : Holdings) : Prop := Reaches h.objects h'.objects

instance : Std.Refl Attains := ⟨fun h => refl_of Reaches h.objects⟩

instance : IsTrans Holdings Attains := ⟨fun _ _ _ => trans_of Reaches⟩

theorem within_collectPublications (cfg : Config) : Within Attains (collectPublications cfg) := by
  intro h
  unfold wp collectPublications
  rcases hm : h.objects.monitor with _ | m
  · exact refl_of Reaches h.objects
  · have hwp := wp_collectPublicationMetrics cfg.metrics (h.publisher m)
    unfold wp at hwp
    dsimp only
    rcases hrun : Metrics.collectPublicationMetrics cfg.metrics (h.publisher m) with ⟨outcome, p⟩
    rw [hrun] at hwp
    cases outcome with
    | ok a => exact reaches_publications hm hwp
    | raised e => exact reaches_publications hm hwp
    | undefined => trivial
    | pending => trivial

theorem within_collect {α : Type} {c : Collect α} (hc : Within Serves c) :
    Within Attains (collect c) := (Within.part hc).zoom fun _ _ h => h

end Publications

/-! ## The cycle as one of the machine -/

section Refinement

open Effect

variable {cfg : Config} {clock : Clock}

/-- `collect_metrics` behind the messages. -/
def behindMessages (cfg : Config) (clock : Clock) : Effect Holdings StdException Unit := do
  collect (collectGauges cfg clock)
  let connected ← collect Metrics.clientConnected
  when (connected = true) (attempt (collectPublications cfg))
  collect (Metrics.setBaselineMetrics cfg.metrics clock)

theorem within_behindMessages (cfg : Config) (clock : Clock) :
    Within Attains (behindMessages cfg clock) := by
  refine (within_collect (within_collectGauges cfg clock)).bind fun _ => ?_
  refine (within_collect within_clientConnected).bind fun connected => ?_
  refine (within_when (within_attempt (within_collectPublications cfg))).bind fun _ => ?_
  exact within_collect (within_setBaselineMetrics _ clock)

theorem neverRaises_attempt {σ : Type} (c : Effect σ StdException Unit) :
    NeverRaises (attempt c) := neverRaises_tryCatch c fun _ => neverRaises_pure ()

theorem neverRaises_selectQueues {σ : Type}
    {discover : Bytes → Effect σ StdException (List Bytes)}
    (hd : ∀ p, NeverRaises (discover p)) (cfg : Metrics.SelectionConfig) :
    NeverRaises (Metrics.selectQueues discover cfg) := by
  have hloop (patterns found : List Bytes) :
      NeverRaises (Metrics.discoverPatterns discover patterns found) := by
    induction patterns generalizing found with
    | nil => exact neverRaises_pure found
    | cons pattern patterns ih =>
        unfold Metrics.discoverPatterns
        exact neverRaises_ite (ih found) ((hd pattern).bind fun qs => ih _)
  refine neverRaises_ite (neverRaises_pure _) ((hloop _ _).bind fun allQueues => ?_)
  refine neverRaises_ite (neverRaises_pure _) ((hd _).bind fun allQueues => ?_)
  exact neverRaises_ite (neverRaises_pure _) (neverRaises_pure _)

theorem neverRaises_collectGauges (cfg : Config) (clock : Clock) :
    NeverRaises (collectGauges cfg clock) := by
  have hdiscover (pattern : Bytes) : NeverRaises (Metrics.session (discoverQueues pattern)) :=
    (neverRaises_discoverQueues pattern).zoom
  refine (neverRaises_selectQueues hdiscover _).bind fun cachedQueues => ?_
  refine (neverRaises_attempt _).bind fun _ => (neverRaises_attempt _).bind fun _ => ?_
  refine (neverRaises_gets _).bind fun connected => neverRaises_when ?_
  refine (neverRaises_attempt _).bind fun _ => (neverRaises_attempt _).bind fun _ =>
    (neverRaises_attempt _).bind fun _ => (neverRaises_attempt _).bind fun _ =>
    (neverRaises_attempt _).bind fun _ => (neverRaises_attempt _).bind fun _ =>
    (neverRaises_gets _).bind fun platform => neverRaises_when (neverRaises_attempt _)

/-- Behind the messages nothing is thrown out of `collect_metrics`. -/
theorem neverRaises_behindMessages (cfg : Config) (clock : Clock) :
    NeverRaises (behindMessages cfg clock) := by
  refine (neverRaises_collectGauges cfg clock).zoom.zoom.bind fun _ => ?_
  refine (neverRaises_gets _).zoom.zoom.bind fun connected => ?_
  refine (neverRaises_when (neverRaises_attempt _)).bind fun _ => ?_
  refine NeverRaises.zoom (NeverRaises.zoom ?_)
  exact (neverRaises_modify _).bind fun _ => (neverRaises_gets _).bind fun _ =>
    neverRaises_modify _

/-- A cycle that ends is one that the machine may make. -/
theorem collectMetrics_refines {h h' : Holdings} {outcome : Outcome StdException Unit}
    (hrun : collectMetrics cfg clock h = (outcome, h'))
    (hends : outcome = .ok () ∨ ∃ e, outcome = .raised e) :
    ∃ requests, Collector.collectMetrics cfg.base requests h.objects = (outcome, h'.objects) := by
  have hmessages : collect (Metrics.collectAllMessages cfg.metrics) h =
      ((Collector.metrics (Metrics.collectAllMessages cfg.metrics) h.objects).1,
        { h with
          objects := (Collector.metrics (Metrics.collectAllMessages cfg.metrics) h.objects).2 }) :=
    rfl
  change (collect (Metrics.collectAllMessages cfg.metrics) >>= fun _ =>
    behindMessages cfg clock) h = _ at hrun
  unfold Collector.collectMetrics
  change ∃ requests, (Collector.metrics (Metrics.collectAllMessages cfg.metrics) >>= fun _ =>
    _) h.objects = _
  rcases hfirst : Collector.metrics (Metrics.collectAllMessages cfg.metrics) h.objects with
    ⟨x, o⟩
  rw [hfirst] at hmessages
  cases x with
  | ok a =>
      rw [bind_of_ok hmessages] at hrun
      rcases hends with rfl | ⟨e, rfl⟩
      · obtain ⟨requests, hrequests⟩ := (within_behindMessages cfg clock).of_ok hrun
        refine ⟨requests, ?_⟩
        rw [bind_of_ok hfirst]
        exact hrequests
      · exact absurd (congrArg Prod.fst hrun) (neverRaises_behindMessages cfg clock _ e)
  | raised e =>
      rw [bind_of_raised hmessages] at hrun
      obtain ⟨rfl, rfl⟩ := Prod.mk.inj hrun
      exact ⟨[], bind_of_raised hfirst⟩
  | undefined =>
      rw [bind_of_undefined hmessages] at hrun
      obtain ⟨rfl, rfl⟩ := Prod.mk.inj hrun
      rcases hends with h | ⟨e, h⟩
      · cases h
      · cases h
  | pending =>
      rw [bind_of_pending hmessages] at hrun
      obtain ⟨rfl, rfl⟩ := Prod.mk.inj hrun
      rcases hends with h | ⟨e, h⟩
      · cases h
      · cases h

end Refinement

/-! ## The exporter as the machine -/

section Steps

variable {cfg : Config} {p p' : Process} {action : Action}

/-- The action of the machine for an action of the exporter. -/
def Action.with (requests : List Request) : Action → Collector.Action
  | .collector _ due portTaken => .collector { due, requests, portTaken }
  | .main signal => .main signal

/-- A cycle that is made has come to its end, and leaves what `collect_metrics` leaves. -/
theorem Process.collectCycle_ends {clock : Clock} {next : Pc}
    (hstep : p.collectCycle cfg clock next = some p') :
    ∃ outcome, collectMetrics cfg clock p.holdings = (outcome, p'.holdings) ∧
      (outcome = .ok () ∨ ∃ e, outcome = .raised e) := by
  obtain ⟨m, hm, rfl⟩ := Option.map_eq_some_iff.mp hstep
  rcases Collector.call_eq_some hm with ⟨o, hrun, rfl⟩ | ⟨e, o, hrun, rfl⟩
  · obtain ⟨houtcome, rfl⟩ := Prod.mk.inj hrun
    exact ⟨_, rfl, .inl houtcome⟩
  · obtain ⟨houtcome, rfl⟩ := Prod.mk.inj hrun
    exact ⟨_, rfl, .inr ⟨e, houtcome⟩⟩

theorem Process.collectCycle_refines {clock : Clock} {next : Pc}
    (hstep : p.collectCycle cfg clock next = some p') :
    ∃ requests, p.machine.collectCycle cfg.base requests next = some p'.machine := by
  obtain ⟨outcome, hrun, hends⟩ := Process.collectCycle_ends hstep
  obtain ⟨requests, hrequests⟩ := collectMetrics_refines hrun hends
  have hsame : Collector.collectMetrics cfg.base requests p.machine.objects =
      ((collectMetrics cfg clock p.holdings).1,
        (collectMetrics cfg clock p.holdings).2.objects) := by
    rw [hrun]
    exact hrequests
  obtain ⟨m, hm, rfl⟩ := Option.map_eq_some_iff.mp hstep
  exact ⟨requests, (Collector.call_congr hsame).trans hm⟩

theorem Process.collectCycle_holdings {clock : Clock} {next : Pc}
    (hstep : p.collectCycle cfg clock next = some p') :
    p'.holdings = (collectMetrics cfg clock p.holdings).2 := by
  obtain ⟨outcome, hrun, -⟩ := Process.collectCycle_ends hstep
  rw [hrun]

theorem behindCycle_eq_none {pc : Pc} : behindCycle cfg pc = none ↔ pc.isCycle = false := by
  cases pc <;> simp [behindCycle, Pc.isCycle]

/-- A step of the collector's thread is a cycle, or one of the machine. -/
theorem Process.step_collector {clock : Clock} {due portTaken : Bool}
    (hstep : p.step cfg (.collector clock due portTaken) = some p') :
    (∃ next, behindCycle cfg p.machine.pc = some next ∧
        p.collectCycle cfg clock next = some p') ∨
      behindCycle cfg p.machine.pc = none ∧
        p.machine.collectorStep cfg.base { due, portTaken } = some p'.machine := by
  unfold Process.step at hstep
  dsimp only at hstep
  cases hnext : behindCycle cfg p.machine.pc with
  | none =>
      rw [hnext] at hstep
      obtain ⟨m, hm, rfl⟩ := Option.map_eq_some_iff.mp hstep
      exact .inr ⟨rfl, hm⟩
  | some next =>
      rw [hnext] at hstep
      exact .inl ⟨next, rfl, hstep⟩

/-- A step of the exporter is one of the machine. -/
theorem Process.step_refines (hstep : p.step cfg action = some p') :
    ∃ requests, p.machine.step cfg.base (action.with requests) = some p'.machine := by
  cases action with
  | main signal =>
      obtain ⟨m, hm, rfl⟩ := Option.map_eq_some_iff.mp hstep
      exact ⟨[], hm⟩
  | collector clock due portTaken =>
      rcases Process.step_collector hstep with ⟨next, hnext, hcycle⟩ | ⟨-, hmachine⟩
      · obtain ⟨requests, hrequests⟩ := Process.collectCycle_refines hcycle
        refine ⟨requests, ?_⟩
        unfold behindCycle at hnext
        unfold Machine.step Action.with Machine.collectorStep
        cases hpc : p.machine.pc with
        | first | cycle | once =>
            rw [hpc] at hnext
            obtain rfl := Option.some.inj hnext
            exact hrequests
        | _ =>
            rw [hpc] at hnext
            cases hnext
      · exact ⟨[], hmachine⟩

/-- The exporter refines the machine. -/
theorem step_refines (cfg : Config) :
    Refines (Process.step cfg) (Machine.step cfg.base) Process.machine fun action action' =>
      ∃ requests, action' = action.with requests := by
  intro p action p' hstep
  obtain ⟨requests, hmachine⟩ := Process.step_refines hstep
  exact ⟨action.with requests, ⟨requests, rfl⟩, hmachine⟩

end Steps

/-- A step of a run of the exporter. -/
abbrev Step : Type := Transition Process Action

/-- The clock of a call of `collect_cycle`. -/
def Step.clock (t : Step) : Option Clock :=
  match t.action with
  | .collector clock _ _ => if t.before.machine.pc.isCycle then some clock else none
  | .main _ => none

section Cycles

variable {cfg : Config} {p p' : Process} {action : Action} {clock : Clock}

theorem Process.cycle_of_clock (hclock : Step.clock ⟨action, p, p'⟩ = some clock)
    (hstep : p.step cfg action = some p') :
    ∃ next, p.collectCycle cfg clock next = some p' := by
  unfold Step.clock at hclock
  cases action with
  | main signal => cases hclock
  | collector clock' due portTaken =>
      dsimp only at hclock
      split at hclock
      · next hpc =>
          obtain rfl := Option.some.inj hclock
          rcases Process.step_collector hstep with ⟨next, -, hcycle⟩ | ⟨hno, -⟩
          · exact ⟨next, hcycle⟩
          · rw [behindCycle_eq_none.mp hno] at hpc
            cases hpc
      · cases hclock

/-- Such a step leaves what `collect_metrics` leaves. -/
theorem Process.step_cycle (hclock : Step.clock ⟨action, p, p'⟩ = some clock)
    (hstep : p.step cfg action = some p') :
    p'.holdings = (collectMetrics cfg clock p.holdings).2 := by
  obtain ⟨next, hcycle⟩ := Process.cycle_of_clock hclock hstep
  exact Process.collectCycle_holdings hcycle

/-- What `collect_metrics` establishes, whether it returns or raises an exception, such a
step establishes. -/
theorem Process.step_cycle_wp {Q : Holdings → Prop}
    (hwp : Effect.wp (collectMetrics cfg clock) (fun _ => Q) (fun _ => Q) p.holdings)
    (hclock : Step.clock ⟨action, p, p'⟩ = some clock) (hstep : p.step cfg action = some p') :
    Q p'.holdings := by
  obtain ⟨next, hcycle⟩ := Process.cycle_of_clock hclock hstep
  obtain ⟨outcome, hrun, hends⟩ := Process.collectCycle_ends hcycle
  unfold Effect.wp at hwp
  rw [hrun] at hwp
  rcases hends with rfl | ⟨e, rfl⟩
  · exact hwp
  · exact hwp

end Cycles

/-- A run of the exporter is one of the machine. -/
theorem run_refines {cfg : Config} {supply : List Reply} {actions : List Action}
    {trace : List Step}
    (hrun : history (Process.step cfg) (Process.initial cfg supply) actions = some trace) :
    ∃ actions' trace',
      history (Machine.step cfg.base) (Machine.initial cfg.base supply) actions' = some trace' ∧
        List.Forall₂ (Transition.Shadows Process.machine fun action action' =>
          ∃ requests, action' = action.with requests) trace trace' :=
  history_refines (step_refines cfg) hrun

end IbmmqExporter.Exporter
