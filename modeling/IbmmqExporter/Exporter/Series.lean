/-
  Exporter/Series.lean --- the series that the exporter writes.

  A cycle consists of what comes in front of the loop over the handles of the queues,
  of this loop, and of what comes behind it.

  WHAT THE FILE PROVES.  The loop writes to series of counts, and the rest of a cycle to
  series of other measurements; between the cycles the registry stays as it is.  So in
  every run each series of the registry is that of a measurement.
-/
import IbmmqExporter.Exporter.Cycle
import IbmmqExporter.Metrics.Measurements

set_option autoImplicit false

namespace IbmmqExporter.Exporter

open Foundation Effect Mq
open Collector (Machine Objects Program)
open Metrics (Clock Collect Counted Family Labels Measurement MetricsCollector Moves Moving
  Publisher Registry Reported Written)

/-! ## The programs of a cycle -/

section Programs

variable {α : Type} {P : Family → Labels → Prop} {cfg : Metrics.Config}

/-- What the metrics collector does to the registry. -/
abbrev Records (P : Family → Labels → Prop) : MetricsCollector → MetricsCollector → Prop :=
  Moving P MetricsCollector.registry

theorem records_record {write : Registry → Registry} (h : ∀ r, Moves P r (write r)) :
    Within (Records P) (Metrics.record write) := within_modify fun m => h m.registry

theorem records_session (c : Method α) : Within (Records P) (Metrics.session c) :=
  within_of_all fun _ => Moves.refl _

theorem records_hand (queueType : QueueType) (msg : MQMessage) :
    Within (Records P) (Metrics.hand queueType msg) :=
  within_modify fun m => Moves.refl m.registry

/-- The platform's name is that of a number. -/
theorem records_platform {k : Bytes → Collect α}
    (h : ∀ plat : Int32, Within (Records P) (k (Platform.platformName plat))) :
    Within (Records P) (Metrics.platform >>= k) :=
  fun m => h m.session.client.platform m

/-- An inquiry whose answer is written to the registry. -/
theorem records_foldl {β : Type} {write : Registry → β → Registry}
    (h : ∀ r b, Moves P r (write r b)) (l : List β) :
    Within (Records P) (Metrics.record fun r => l.foldl write r) :=
  records_record fun r => Metrics.moves_foldl (fun r b _ => h r b) r

theorem records_processStatisticsMessage (msg : MQMessage) :
    Within (Records (Reported cfg)) (Metrics.processStatisticsMessage cfg msg) := by
  refine (records_hand _ msg).bind fun _ => ?_
  refine (within_lift _).bind fun result => ?_
  rcases result with _ | (stats | acct)
  · exact within_pure ()
  · exact records_platform fun plat =>
      records_record fun r => Metrics.moves_recordStatistics plat stats
  · exact within_pure ()

theorem records_processAccountingMessage (msg : MQMessage) :
    Within (Records (Reported cfg)) (Metrics.processAccountingMessage cfg msg) := by
  refine (records_hand _ msg).bind fun _ => ?_
  refine (within_lift _).bind fun result => ?_
  rcases result with _ | (stats | acct)
  · exact within_pure ()
  · exact within_pure ()
  · exact records_record fun r => Metrics.moves_recordAccounting acct

theorem records_collectionInfo :
    Within (Records (Reported cfg)) (do
      let plat ← Metrics.platform
      Metrics.record fun r => r.set .collectionInfo (Metrics.collectionLabels cfg plat) 1) :=
  records_platform fun plat => records_record fun r =>
    (Moves.refl r).set (Metrics.reported_series (.collection plat) rfl _ rfl) 1

theorem records_collectAllMessages :
    Within (Records (Reported cfg)) (Metrics.collectAllMessages cfg) := by
  have hread (queueType : QueueType) :
      Within (Records (Reported cfg)) (Metrics.collectMessages queueType) :=
    (records_session _).tryCatch fun _ => within_pure []
  refine (hread .stats).bind fun statsMsgs => (hread .accounting).bind fun acctMsgs => ?_
  refine (within_forEach fun msg _ => records_processStatisticsMessage msg).bind fun _ => ?_
  refine (within_forEach fun msg _ => records_processAccountingMessage msg).bind fun _ => ?_
  exact records_collectionInfo

/-- A loop over queues that inquires about each of them. -/
theorem records_queueInfos {queues : List Bytes}
    {write : Bytes → QueueInfo → Registry → Registry}
    (h : ∀ qname info r, Moves P r (write qname info r)) :
    Within (Records P) (forEach queues fun qname => do
      let info ← Metrics.session (getQueueInfo qname)
      match info with
      | none => return
      | some info => Metrics.record (write qname info)) := by
  refine within_forEach fun qname _ => (records_session _).bind fun info => ?_
  cases info with
  | none => exact within_pure ()
  | some info => exact records_record (h qname info)

theorem records_collectAndUpdateQueueMetrics (queues : List Bytes) :
    Within (Records (Reported cfg)) (Metrics.collectAndUpdateQueueMetrics cfg queues) := by
  refine (within_gets _).bind fun connected => within_ite (within_pure ()) ?_
  refine records_platform fun plat => records_queueInfos fun qname info r => ?_
  have hw := @Metrics.reported_series cfg (.queueInfo plat info.queueName) rfl
  exact ((Moves.refl r).set (hw _ (by simp [Measurement.Writes])) _).set
    (hw _ (by simp [Measurement.Writes])) _

theorem records_collectAndUpdateHandleMetrics (queues : List Bytes) :
    Within (Records (Counted cfg)) (Metrics.collectAndUpdateHandleMetrics cfg queues) := by
  refine (within_gets _).bind fun connected => within_ite (within_pure ()) ?_
  refine within_ite (within_pure ()) (records_queueInfos fun qname info r => ?_)
  exact (Metrics.moves_recordHandles qname (by simp) _).trans
    (Metrics.moves_recordHandles qname (by simp) _)

theorem records_collectPatterns {β : Type} {patterns : List Bytes}
    {inquire : Bytes → Method (List β)} {write : Registry → β → Registry}
    (h : ∀ r b, Moves P r (write r b)) :
    Within (Records P) (Metrics.collectPatterns patterns inquire write) :=
  within_forEach fun _ _ => (records_session _).bind fun statuses => records_foldl h statuses

theorem records_collectQmgrStatus (clock : Clock) :
    Within (Records (Reported cfg)) (Metrics.collectQmgrStatus cfg clock) := by
  refine (records_session _).bind fun status => records_platform fun plat => ?_
  cases status with
  | none =>
      exact records_record fun r => (Moves.refl r).set
        (Metrics.reported_series (.qmgr plat []) rfl _ (by simp [Measurement.Writes])) 0
  | some status => exact records_record fun r => Metrics.moves_recordQmgrStatus plat clock status

theorem records_collectStatuses (cfg : Config) (clock : Clock) (cachedQueues : List Bytes) :
    Within (Records (Reported cfg.metrics)) (collectStatuses cfg clock cachedQueues) := by
  refine (within_attempt (records_collectQmgrStatus _)).bind fun _ => ?_
  refine (within_attempt ?_).bind fun _ => (within_attempt ?_).bind fun _ =>
    (within_attempt ?_).bind fun _ => (within_attempt ?_).bind fun _ =>
    (within_attempt ?_).bind fun _ => (within_gets _).bind fun platform =>
    within_when (within_attempt ?_)
  · exact records_platform fun plat =>
      records_collectPatterns fun r ch => Metrics.moves_recordChannelStatus plat ch
  · exact within_ite (within_pure ()) (records_platform fun plat =>
      records_collectPatterns fun r t => Metrics.moves_recordTopicStatus plat t)
  · exact within_ite (within_pure ()) (records_platform fun plat =>
      records_collectPatterns fun r s => Metrics.moves_recordSubStatus plat s)
  · refine (records_session _).bind fun clusters => records_platform fun plat => ?_
    exact records_foldl (fun r cl => Metrics.moves_recordClusterStatus plat cl) clusters
  · refine (within_gets _).bind fun connected => within_ite (within_pure ()) ?_
    refine within_ite (within_pure ()) (records_platform fun plat => ?_)
    refine (records_session _).bind fun statuses => ?_
    exact records_foldl (fun r qs => Metrics.moves_recordQueueOnlineStatus plat qs) _
  · refine records_platform fun plat => (records_session _).bind fun bps => ?_
    refine (records_foldl (fun r bp => Metrics.moves_recordUsageBp plat bp) bps).bind fun _ => ?_
    refine (records_session _).bind fun pss => ?_
    exact records_foldl (fun r ps => Metrics.moves_recordUsagePs plat ps) pss

theorem records_setBaselineMetrics (clock : Clock) :
    Within (Records (Reported cfg)) (Metrics.setBaselineMetrics cfg clock) := by
  refine (records_record fun r => ?_).bind fun _ => records_collectionInfo
  exact (Moves.refl r).set (Metrics.reported_series .timestamp rfl _ rfl) _

end Programs

/-! ## The parts of a cycle -/

/-- The registry of the process. -/
def Holdings.registry (h : Holdings) : Registry := h.objects.metrics.registry

section Cycle

variable {α β : Type} {P : Family → Labels → Prop} (cfg : Config) (clock : Clock)

/-- `collect_metrics` in front of the loop over the handles, with the queues that it goes
over. -/
def beforeHandles : Effect Holdings StdException (List Bytes) := do
  collect (Metrics.collectAllMessages cfg.metrics)
  let cachedQueues ← collect (Metrics.getQueuesToMonitor cfg.queues.selection)
  collect (attempt (Metrics.collectAndUpdateQueueMetrics cfg.metrics cachedQueues))
  return cachedQueues

/-- The loop over the handles. -/
def handles (cachedQueues : List Bytes) : Effect Holdings StdException Unit :=
  collect (attempt (Metrics.collectAndUpdateHandleMetrics cfg.metrics cachedQueues))

/-- `collect_metrics` behind this loop. -/
def behindHandles (cachedQueues : List Bytes) : Effect Holdings StdException Unit := do
  let connected ← collect Metrics.clientConnected
  collect (when (cfg.useStatus = true ∧ connected = true)
    (collectStatuses cfg clock cachedQueues))
  let connected ← collect Metrics.clientConnected
  when (connected = true) (attempt (collectPublications cfg))
  collect (Metrics.setBaselineMetrics cfg.metrics clock)

theorem collect_bind (c : Collect α) (f : α → Collect β) :
    collect (c >>= f) = collect c >>= fun a => collect (f a) := by
  refine (congrArg _ (zoom_bind ?_ ?_ c f)).trans (zoom_bind ?_ ?_ _ _)
  · exact fun _ _ => rfl
  · exact fun _ _ _ => rfl
  · exact fun _ _ => rfl
  · exact fun _ _ _ => rfl

/-- The parts make up the cycle. -/
theorem collectMetrics_eq :
    collectMetrics cfg clock =
      beforeHandles cfg >>= fun cachedQueues =>
        handles cfg cachedQueues >>= fun _ => behindHandles cfg clock cachedQueues := by
  unfold collectMetrics collectGauges beforeHandles handles behindHandles
  simp only [collect_bind, bind_assoc, pure_bind]

theorem moves_collect {c : Collect α} (hc : Within (Records P) c) :
    Within (Moving P Holdings.registry) (collect c) := by
  have hobjects : Within (Moving P fun o : Objects => o.metrics.registry)
      (Collector.metrics c) := hc.zoom fun _ _ h => h
  exact hobjects.zoom fun _ _ h => h

theorem moves_beforeHandles :
    Within (Moving (Reported cfg.metrics) Holdings.registry) (beforeHandles cfg) := by
  refine (moves_collect records_collectAllMessages).bind fun _ => ?_
  refine (moves_collect (within_selectQueues (fun _ => records_session _) _)).bind fun queues => ?_
  refine (moves_collect (within_attempt ?_)).bind fun _ => within_pure queues
  exact records_collectAndUpdateQueueMetrics queues

theorem moves_handles (cachedQueues : List Bytes) :
    Within (Moving (Counted cfg.metrics) Holdings.registry) (handles cfg cachedQueues) :=
  moves_collect (within_attempt (records_collectAndUpdateHandleMetrics cachedQueues))

theorem moves_collectPublications :
    Within (Moving (Reported cfg.metrics) Holdings.registry) (collectPublications cfg) := by
  have hpublish : Within (Moving (Reported cfg.metrics) Publisher.registry)
      (Metrics.collectPublicationMetrics cfg.metrics) := by
    refine Within.bind (within_of_all fun p => Moves.refl p.registry) fun pubs => ?_
    refine within_ite (within_pure ()) fun p => ?_
    exact Metrics.moves_recordPublications p.world.session.client.platform p pubs
  intro h
  unfold wp collectPublications
  rcases h.objects.monitor with _ | m
  · exact Moves.refl h.registry
  · have hwp := hpublish (h.publisher m)
    unfold wp at hwp
    dsimp only
    rcases hrun : Metrics.collectPublicationMetrics cfg.metrics (h.publisher m) with ⟨outcome, p⟩
    rw [hrun] at hwp
    cases outcome <;> exact hwp

theorem moves_behindHandles (cachedQueues : List Bytes) :
    Within (Moving (Reported cfg.metrics) Holdings.registry)
      (behindHandles cfg clock cachedQueues) := by
  refine (moves_collect (within_gets _)).bind fun connected => ?_
  refine (moves_collect (within_when (records_collectStatuses cfg clock cachedQueues))).bind
    fun _ => ?_
  refine (moves_collect (within_gets _)).bind fun connected => ?_
  refine (within_when (within_attempt (moves_collectPublications cfg))).bind fun _ => ?_
  exact moves_collect (records_setBaselineMetrics clock)

/-- A cycle writes to the series of measurements. -/
theorem moves_collectMetrics :
    Within (Moving (Written cfg.metrics fun _ => True) Holdings.registry)
      (collectMetrics cfg clock) := by
  have hmono {α : Type} {K : Measurement → Prop} {c : Effect Holdings StdException α}
      (hc : Within (Moving (Written cfg.metrics K) Holdings.registry) c) :
      Within (Moving (Written cfg.metrics fun _ => True) Holdings.registry) c :=
    hc.mono fun _ _ hmoves => hmoves.mono fun f ls ⟨x, _, hx⟩ => ⟨x, trivial, hx⟩
  rw [collectMetrics_eq]
  refine (hmono (moves_beforeHandles cfg)).bind fun cachedQueues => ?_
  refine (hmono (moves_handles cfg cachedQueues)).bind fun _ => ?_
  exact hmono (moves_behindHandles cfg clock cachedQueues)

end Cycle

/-! ## Between the cycles -/

section Between

variable {α : Type}

/-- The registry, seen from the objects. -/
def registryOf (o : Objects) : Registry := o.metrics.registry

theorem preserves_registry_client (c : Method α) :
    Preserves registryOf (Collector.client c) := fun _ => rfl

theorem preserves_registry_monitor (absent : α) (c : Monitor.Program α) :
    Preserves registryOf (Collector.monitor absent c) := by
  intro o
  unfold Collector.monitor
  split
  · rfl
  · rfl

theorem setupAside_registryOf : Collector.SetupAside registryOf where
  close := preserves_registry_monitor () _
  discover := preserves_registry_monitor false _
  createSubscriptions _ := preserves_registry_monitor false _
  assign _ _ := rfl
  openStatsQueue _ := preserves_registry_client _
  openAccountingQueue _ := preserves_registry_client _
  subscribeToTopic _ := preserves_registry_client _
  discoverQueues _ := preserves_registry_client _
  assignQueues _ _ := rfl

theorem preserves_registry_resetMonitor : Preserves registryOf Collector.resetMonitor :=
  Collector.preserves_resetMonitor_of setupAside_registryOf.toMonitorAside

theorem preserves_registry_renewClient (cfg : Collector.Config) :
    Preserves registryOf (Collector.renewClient cfg) := by
  refine ((preserves_registry_client _).tryCatch fun _ => preserves_pure ()).bind fun _ => ?_
  exact preserves_registry_resetMonitor.bind fun _ => preserves_modify fun _ => rfl

/-- A step that is no cycle leaves the registry alone. -/
theorem Process.step_between {cfg : Config} {p p' : Process} {action : Action}
    (hclock : Step.clock ⟨action, p, p'⟩ = none) (hstep : p.step cfg action = some p') :
    p'.holdings.registry = p.holdings.registry := by
  cases action with
  | main signal =>
      obtain ⟨m, hm, rfl⟩ := Option.map_eq_some_iff.mp hstep
      refine Collector.mainStep_within (R := Same registryOf) ?_ hm
      refine Collector.MainPc.program_within ?_ fun _ => ?_
      · exact ((preserves_registry_monitor () _).bind fun _ =>
          preserves_registry_resetMonitor).within
      · exact ((preserves_registry_client _).tryCatch fun _ => preserves_pure ()).within
  | collector clock due portTaken =>
      rcases Process.step_collector hstep with ⟨next, hnext, -⟩ | ⟨hno, hmachine⟩
      · unfold Step.clock at hclock
        cases hpc : p.machine.pc.isCycle with
        | true =>
            dsimp only at hclock
            rw [if_pos hpc] at hclock
            cases hclock
        | false =>
            rw [behindCycle_eq_none.mpr hpc] at hnext
            cases hnext
      · refine Collector.collectorStep_within (R := Same registryOf) ?_ hmachine
        refine Collector.Pc.program_within (fun _ => ?_) (fun _ => ?_) (fun hcycle => ?_)
          (fun _ _ => ?_) fun _ => ?_
        · exact (preserves_registry_client _).within
        · exact (Collector.preserves_setupAfterConnect_of setupAside_registryOf _).within
        · rw [behindCycle_eq_none.mp hno] at hcycle
          cases hcycle
        · exact (Collector.preserves_rediscover_of setupAside_registryOf _).within
        · exact (preserves_registry_renewClient _).within

end Between

/-! ## Runs -/

/-- Every series of the registry is one of a measurement. -/
def Recorded (cfg : Config) (r : Registry) : Prop :=
  ∀ f ls, r f ls ≠ none → Written cfg.metrics (fun _ => True) f ls

/-- In a run every series is one of a measurement. -/
theorem run_recorded {cfg : Config} {supply : List Reply} {actions : List Action}
    {trace : List Step}
    (hrun : history (Process.step cfg) (Process.initial cfg supply) actions = some trace) :
    ∀ t ∈ trace, Recorded cfg t.after.holdings.registry := by
  have hkept : KeptWhen (Process.step cfg) (fun _ => True)
      fun p => Recorded cfg p.holdings.registry := by
    intro p action p' hrecorded hstep _
    cases hclock : Step.clock ⟨action, p, p'⟩ with
    | none =>
        rw [Process.step_between hclock hstep]
        exact hrecorded
    | some clock =>
        have hmoves : Moves (Written cfg.metrics fun _ => True) p.holdings.registry
            p'.holdings.registry :=
          Process.step_cycle_wp (Q := Moving _ Holdings.registry p.holdings)
            (moves_collectMetrics cfg clock p.holdings) hclock hstep
        intro f ls hne
        by_cases heq : p'.holdings.registry f ls = p.holdings.registry f ls
        · exact hrecorded f ls (heq ▸ hne)
        · exact hmoves f ls heq
  have hinitial : Recorded cfg (Process.initial cfg supply).holdings.registry :=
    fun _ _ hne => absurd rfl hne
  exact fun t ht => (hkept.of_mem hinitial hrun (fun _ _ => trivial) ht).2.2

end IbmmqExporter.Exporter
