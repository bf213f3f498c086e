/-
  Exporter/Harm.lean --- why a thread of the exporter does not go on.

  A thread may wait for an answer, and it may have left what C++ defines.  The latter is
  due to an interval of the configuration, or to a message: to one that is longer than the
  buffer it was read into, or to a response in which a parameter states a length or a count
  that wraps around.

  WHAT THE FILE PROVES.  In every state of every run, a thread that cannot take a step is at
  its end, or it waits for the other thread or for an answer, or it has an interval whose
  turns are no `int`, or the calls that it has made since have found such a message.  As
  long as the process runs it has found none that is too long (`run_blamed`).
-/
import IbmmqExporter.Collector.Ending
import IbmmqExporter.Exporter.Conduct
import IbmmqExporter.Exporter.Draining
import IbmmqExporter.Mq.Harm

set_option autoImplicit false

namespace IbmmqExporter.Exporter

open Foundation Effect Mq
open Collector (Machine Objects Pc MainPc)
open Metrics (Clock Collect Publisher)

/-! ## The monitor -/

section Monitor

open Monitor

variable {α : Type}

/-- A method of the monitor has nothing but messages to blame. -/
abbrev BlamingWorld (c : Monitor.Program α) : Prop :=
  Accounts (fun w : World => w.session.log) MqiEvent.Oversize MqiEvent.Wrapping c

theorem blaming_world_session {c : Method α} (hc : Blaming c) :
    BlamingWorld (Monitor.session c) := hc.zoom fun _ _ => rfl

theorem blaming_assign (f : ResourceMonitor → ResourceMonitor) : BlamingWorld (assign f) :=
  accounts_modify fun _ => rfl

theorem blaming_metadata (least : Int) (topic : Bytes) : BlamingWorld (metadata least topic) := by
  refine (blaming_world_session (guarded_subscribeAndGet topic).accounts).bind fun msg => ?_
  cases msg with
  | none => exact accounts_pure none
  | some msg =>
      refine accounts_ite (accounts_pure none) (Accounts.map (accounts_of_returns ?_) some)
      exact parsePcfParams_returns _

theorem blaming_addTypes (params : List PCFParam) (cls : MonitorClass) :
    BlamingWorld (addTypes params cls) := by
  induction params generalizing cls with
  | nil => exact accounts_pure cls
  | cons p params ih =>
      unfold addTypes
      refine accounts_ite (ih cls) ?_
      dsimp only
      refine accounts_ite (ih cls) (Accounts.bind ?_ fun mtype => ih _)
      refine (blaming_metadata 1 _).bind fun params => ?_
      cases params with
      | none => exact accounts_pure _
      | some params => exact accounts_pure _

theorem blaming_discoverTypes (cls : MonitorClass) : BlamingWorld (discoverTypes cls) := by
  refine accounts_ite (accounts_pure none) ((blaming_metadata 1 _).bind fun params => ?_)
  cases params with
  | none => exact accounts_pure none
  | some params => exact (blaming_addTypes params cls).bind fun _ => accounts_pure _

theorem blaming_addClasses (params : List PCFParam) : BlamingWorld (addClasses params) := by
  induction params with
  | nil => exact accounts_pure ()
  | cons p params ih =>
      unfold addClasses
      refine accounts_ite ih ?_
      dsimp only
      refine accounts_ite ih ((blaming_discoverTypes _).bind fun found => ?_)
      cases found with
      | none => exact ih
      | some cls => exact (blaming_assign _).bind fun _ => ih

theorem blaming_discover : BlamingWorld discover := by
  have hclasses : BlamingWorld discoverClasses := by
    refine (accounts_gets _).bind fun qmgrName => (blaming_metadata 36 _).bind fun params => ?_
    cases params with
    | none => exact accounts_pure false
    | some params =>
        exact (blaming_addClasses params).bind fun _ => (accounts_gets _).bind fun _ =>
          accounts_pure _
  refine hclasses.bind fun found => accounts_ite (accounts_pure false) ?_
  exact (blaming_assign _).bind fun _ => accounts_pure true

theorem blaming_createSubscriptions (queues : List Bytes) :
    BlamingWorld (createSubscriptions queues) := by
  have hsubscribe (className typeName topic : Bytes) :
      BlamingWorld (subscribeData className typeName topic) := by
    refine (blaming_world_session (blaming_createSubscription topic)).bind fun sub => ?_
    cases sub with
    | none => exact accounts_pure ()
    | some handles => exact blaming_assign _
  refine (accounts_gets _).bind fun classes => accounts_ite (accounts_pure false) ?_
  refine (accounts_gets _).bind fun before => ?_
  refine (accounts_forEach fun t _ => hsubscribe _ _ _).bind fun _ => ?_
  exact (accounts_gets _).bind fun _ => accounts_pure _

/-- The publications are read, and any of them can be parsed. -/
theorem blaming_processPublications : BlamingWorld processPublications := by
  have hloop (subs : List DataSub) : ∀ metrics : List PublicationMetric,
      BlamingWorld (publicationsOf subs metrics) := by
    induction subs with
    | nil => exact accounts_pure
    | cons sub subs ih =>
        intro metrics
        unfold publicationsOf
        refine (blaming_world_session
          (guarded_getMessagesFromHandle _ _).accounts).bind fun messages => ?_
        refine (accounts_gets _).bind fun typeElements => ?_
        cases typeElements.lookup (typeKey sub.className sub.typeName) with
        | none => exact ih metrics
        | some emap =>
            exact (accounts_of_returns (messageMetrics_returns sub emap messages)).bind
              fun found => ih _
  exact (accounts_gets _).bind fun subs => hloop subs []

theorem blaming_close : BlamingWorld Monitor.close := by
  refine (accounts_gets _).bind fun subs => ?_
  refine (accounts_forEach fun sub _ => ?_).bind fun _ => blaming_assign _
  exact blaming_world_session (blaming_closeSubscription sub.handles)

end Monitor

/-! ## The metrics collector -/

section Metrics

variable {α : Type}

/-- A method of the metrics collector has nothing but messages to blame. -/
abbrev BlamingMetrics (c : Collect α) : Prop :=
  Accounts (fun m : Metrics.MetricsCollector => m.session.log) MqiEvent.Oversize
    MqiEvent.Wrapping c

theorem blaming_session {c : Method α} (hc : Blaming c) : BlamingMetrics (Metrics.session c) :=
  hc.zoom fun _ _ => rfl

theorem blaming_record (f : Metrics.Registry → Metrics.Registry) :
    BlamingMetrics (Metrics.record f) := accounts_modify fun _ => rfl

/-- Messages of any content can be processed. -/
theorem blaming_updateMetricsFromMessages (cfg : Metrics.Config)
    (statsMsgs acctMsgs : List MQMessage) :
    BlamingMetrics (Metrics.updateMetricsFromMessages cfg statsMsgs acctMsgs) := by
  intro m
  obtain ⟨done, -, -, hsession, -, hok, hraised⟩ :=
    Metrics.updateMetricsFromMessages_hands cfg statsMsgs acctMsgs m
  refine ⟨[], ?_, ?_⟩
  · dsimp only
    rw [hsession, List.append_nil]
  · by_cases hall : ∀ e ∈ Metrics.batchOf statsMsgs acctMsgs, Pcf.AcceptedMessage e.2.data
    · rw [hok hall]
      exact nofun
    · rw [hraised hall]
      exact nofun

theorem blaming_collectAllMessages (cfg : Metrics.Config) :
    BlamingMetrics (Metrics.collectAllMessages cfg) := by
  have hcollect (queueType : QueueType) : BlamingMetrics (Metrics.collectMessages queueType) :=
    (blaming_session (blaming_getAllMessages queueType)).tryCatch fun _ => accounts_pure []
  exact (hcollect .stats).bind fun statsMsgs => (hcollect .accounting).bind fun acctMsgs =>
    blaming_updateMetricsFromMessages cfg statsMsgs acctMsgs

theorem blaming_attempt {σ : Type} {log : σ → List MqiEvent} {c : Effect σ StdException Unit}
    (hc : Accounts log MqiEvent.Oversize MqiEvent.Wrapping c) :
    Accounts log MqiEvent.Oversize MqiEvent.Wrapping (attempt c) :=
  hc.tryCatch fun _ => accounts_pure ()

/-- An inquiry, and what is done with its answer. -/
theorem blaming_inquiry {β : Type} (parser : Pcf.StatusParser α) (cmd : Bytes)
    {k : List α → Collect β} (hk : ∀ statuses, BlamingMetrics (k statuses)) :
    BlamingMetrics (Metrics.session (inquireStatus cmd parser.parse) >>= k) :=
  (blaming_session (blaming_inquireParsed parser cmd)).bind hk

theorem blaming_collectPatterns (parser : Pcf.StatusParser α) {patterns : List Bytes}
    {cmd : Bytes → Bytes} {write : Metrics.Registry → α → Metrics.Registry} :
    BlamingMetrics
      (Metrics.collectPatterns patterns
        (fun pattern => inquireStatus (cmd pattern) parser.parse) write) :=
  accounts_forEach fun _ _ => blaming_inquiry parser _ fun _ => blaming_record _

/-- A loop over queues that inquires about each of them. -/
theorem blaming_queueInfos {queues : List Bytes}
    {write : Bytes → QueueInfo → Metrics.Registry → Metrics.Registry} :
    BlamingMetrics (forEach queues fun qname => do
      let info ← Metrics.session (getQueueInfo qname)
      match info with
      | none => return
      | some info => Metrics.record (write qname info)) := by
  refine accounts_forEach fun qname _ => ?_
  refine (blaming_session (blaming_getQueueInfo qname)).bind fun info => ?_
  cases info with
  | none => exact accounts_pure ()
  | some info => exact blaming_record _

theorem blaming_collectQmgrStatus (cfg : Metrics.Config) (clock : Clock) :
    BlamingMetrics (Metrics.collectQmgrStatus cfg clock) := by
  have hinquire := blaming_inquireParsed Pcf.qmgrStatusParser Pcf.buildInquireQmgrStatusCmd
  refine (blaming_session (hinquire.map _)).bind fun status => (accounts_gets _).bind fun plat => ?_
  cases status with
  | none => exact blaming_record _
  | some status => exact blaming_record _

theorem blaming_collectStatuses (cfg : Config) (clock : Clock) (cachedQueues : List Bytes) :
    BlamingMetrics (collectStatuses cfg clock cachedQueues) := by
  refine (blaming_attempt (blaming_collectQmgrStatus _ _)).bind fun _ => ?_
  refine (blaming_attempt ?_).bind fun _ => (blaming_attempt ?_).bind fun _ =>
    (blaming_attempt ?_).bind fun _ => (blaming_attempt ?_).bind fun _ =>
    (blaming_attempt ?_).bind fun _ => (accounts_gets _).bind fun platform =>
    accounts_when (blaming_attempt ?_)
  · exact (accounts_gets _).bind fun plat => blaming_collectPatterns Pcf.channelStatusParser
  · refine accounts_ite (accounts_pure ()) ((accounts_gets _).bind fun plat => ?_)
    exact blaming_collectPatterns Pcf.topicStatusParser
  · refine accounts_ite (accounts_pure ()) ((accounts_gets _).bind fun plat => ?_)
    exact blaming_collectPatterns Pcf.subStatusParser
  · exact blaming_inquiry Pcf.clusterQmgrParser _ fun clusters =>
      (accounts_gets _).bind fun _ => blaming_record _
  · refine (accounts_gets _).bind fun connected => accounts_ite (accounts_pure ()) ?_
    refine accounts_ite (accounts_pure ()) ((accounts_gets _).bind fun plat => ?_)
    exact blaming_inquiry Pcf.queueOnlineStatusParser _ fun statuses => blaming_record _
  · refine (accounts_gets _).bind fun plat => ?_
    refine blaming_inquiry Pcf.usageBpParser _ fun bps => (blaming_record _).bind fun _ => ?_
    exact blaming_inquiry Pcf.usagePsParser _ fun pss => blaming_record _

theorem blaming_getQueuesToMonitor (cfg : Metrics.SelectionConfig) :
    BlamingMetrics (Metrics.getQueuesToMonitor cfg) := by
  have hdiscover (pattern : Bytes) : BlamingMetrics (Metrics.session (discoverQueues pattern)) :=
    blaming_session (blaming_discoverQueues pattern)
  have hloop (patterns found : List Bytes) :
      BlamingMetrics (Metrics.discoverPatterns
        (fun pattern => Metrics.session (discoverQueues pattern)) patterns found) := by
    induction patterns generalizing found with
    | nil => exact accounts_pure found
    | cons pattern patterns ih =>
        unfold Metrics.discoverPatterns
        exact accounts_ite (ih found) ((hdiscover pattern).bind fun qs => ih _)
  refine accounts_ite (accounts_pure _) ((hloop _ _).bind fun allQueues => ?_)
  refine accounts_ite (accounts_pure _) ((hdiscover _).bind fun allQueues => ?_)
  exact accounts_ite (accounts_pure _) (accounts_pure _)

theorem blaming_collectGauges (cfg : Config) (clock : Clock) :
    BlamingMetrics (collectGauges cfg clock) := by
  refine (blaming_getQueuesToMonitor _).bind fun cachedQueues => ?_
  refine (blaming_attempt ?_).bind fun _ => (blaming_attempt ?_).bind fun _ => ?_
  · refine (accounts_gets _).bind fun connected => accounts_ite (accounts_pure ()) ?_
    exact (accounts_gets _).bind fun plat => blaming_queueInfos
  · refine (accounts_gets _).bind fun connected => accounts_ite (accounts_pure ()) ?_
    exact accounts_ite (accounts_pure ()) blaming_queueInfos
  · exact (accounts_gets _).bind fun connected =>
      accounts_when (blaming_collectStatuses cfg clock cachedQueues)

end Metrics

/-! ## The objects of the collector -/

section Objects

variable {α : Type}

/-- A program of the collector has nothing but messages to blame. -/
abbrev BlamingObjects (c : Collector.Program α) : Prop :=
  Accounts (fun o : Objects => o.session.log) MqiEvent.Oversize MqiEvent.Wrapping c

theorem blaming_client {c : Method α} (hc : Blaming c) : BlamingObjects (Collector.client c) :=
  hc.zoom fun _ _ => rfl

theorem blaming_metrics {c : Collect α} (hc : BlamingMetrics c) :
    BlamingObjects (Collector.metrics c) := hc.zoom fun _ _ => rfl

theorem blaming_monitor (absent : α) {c : Monitor.Program α} (hc : BlamingWorld c) :
    BlamingObjects (Collector.monitor absent c) := by
  intro o
  unfold Collector.monitor
  cases o.monitor with
  | none => exact ⟨[], (List.append_nil _).symm, nofun⟩
  | some m => exact hc { session := o.session, monitor := m }

theorem blaming_resetMonitor : BlamingObjects Collector.resetMonitor :=
  (blaming_monitor () blaming_close).bind fun _ => accounts_modify fun _ => rfl

theorem blaming_discoverMonitored (patterns : List Bytes) :
    BlamingObjects (Collector.discoverMonitored patterns) :=
  accounts_forEach fun pattern _ => accounts_when <|
    (blaming_client (blaming_discoverQueues pattern)).bind fun _ => accounts_modify fun _ => rfl

theorem blaming_disconnecting :
    BlamingObjects (tryCatch (Collector.client disconnect) fun _ => return) :=
  (blaming_client blaming_disconnect).tryCatch fun _ => accounts_pure ()

theorem blaming_setupMonitor (cfg : Collector.Config) :
    BlamingObjects (Collector.setupMonitor cfg) := by
  refine Accounts.tryCatch (Accounts.bind (accounts_modify fun _ => rfl) fun _ => ?_)
    fun _ => blaming_resetMonitor
  refine (blaming_monitor false blaming_discover).bind fun found =>
    accounts_ite ((accounts_gets _).bind fun queues => ?_) blaming_resetMonitor
  exact (blaming_monitor false (blaming_createSubscriptions queues)).bind fun _ =>
    accounts_pure ()

theorem blaming_setupAfterConnect (cfg : Collector.Config) :
    BlamingObjects (Collector.setupAfterConnect cfg) := by
  have hopen (queueName what : Bytes) (f : MQHOBJ → MQClient → MQClient) :=
    (blaming_client (blaming_opening queueName what f)).tryCatch fun _ => accounts_pure ()
  refine (hopen _ _ _).bind fun _ => (hopen _ _ _).bind fun _ => ?_
  refine (accounts_forEach fun topic _ => ?_).bind fun _ =>
    (blaming_discoverMonitored _).bind fun _ => accounts_when (blaming_setupMonitor cfg)
  exact (blaming_client (blaming_subscribeToTopic topic)).bind fun _ => accounts_pure ()

theorem blaming_rediscover (cfg : Collector.Config) :
    BlamingObjects (Collector.rediscover cfg) :=
  Accounts.bind (accounts_modify fun _ => rfl) fun _ => blaming_discoverMonitored _

theorem blaming_renewClient (cfg : Collector.Config) :
    BlamingObjects (Collector.renewClient cfg) :=
  blaming_disconnecting.bind fun _ => blaming_resetMonitor.bind fun _ =>
    accounts_modify fun _ => rfl

end Objects

/-! ## The cycle -/

section Cycle

/-- The calls that have been answered. -/
abbrev BlamingHoldings (c : Effect Holdings StdException Unit) : Prop :=
  Accounts Holdings.log MqiEvent.Oversize MqiEvent.Wrapping c

theorem blaming_collect {α : Type} {c : Collect α} (hc : BlamingMetrics c) :
    Accounts Holdings.log MqiEvent.Oversize MqiEvent.Wrapping (collect c) :=
  (blaming_metrics hc).zoom fun _ _ => rfl

theorem blaming_collectPublicationMetrics (cfg : Metrics.Config) :
    Accounts (fun p : Publisher => p.world.session.log) MqiEvent.Oversize MqiEvent.Wrapping
      (Metrics.collectPublicationMetrics cfg) := by
  have hread : Accounts (fun p : Publisher => p.world.session.log) MqiEvent.Oversize
      MqiEvent.Wrapping
      (zoom Publisher.world (fun w p => { p with world := w }) Monitor.processPublications) :=
    blaming_processPublications.zoom fun _ _ => rfl
  refine hread.bind fun pubs => accounts_ite (accounts_pure ()) ?_
  refine (accounts_gets _).bind fun plat => accounts_modify fun p => ?_
  rw [world_foldl_recordPublication]

theorem blaming_collectPublications (cfg : Config) : BlamingHoldings (collectPublications cfg) := by
  intro h
  unfold collectPublications
  cases h.objects.monitor with
  | none => exact ⟨[], (List.append_nil _).symm, nofun⟩
  | some m => exact blaming_collectPublicationMetrics cfg.metrics (h.publisher m)

/-- A cycle has nothing but messages to blame. -/
theorem blaming_collectMetrics (cfg : Config) (clock : Clock) :
    BlamingHoldings (collectMetrics cfg clock) := by
  refine (blaming_collect (blaming_collectAllMessages _)).bind fun _ => ?_
  refine (blaming_collect (blaming_collectGauges cfg clock)).bind fun _ => ?_
  refine (blaming_collect (accounts_gets _)).bind fun connected => ?_
  refine (accounts_when (blaming_attempt (blaming_collectPublications cfg))).bind fun _ => ?_
  refine blaming_collect ((blaming_record _).bind fun _ => ?_)
  exact (accounts_gets _).bind fun _ => blaming_record _

end Cycle

/-! ## Threads that do not go on -/

/-- A program of the collector, on what a cycle works on. -/
def onObjects (c : Collector.Program Unit) : Effect Holdings StdException Unit :=
  zoom Holdings.objects (fun o h => { h with objects := o }) c

/-- The program that a thread runs with its next step. -/
def Process.program (cfg : Config) (p : Process) :
    Action → Option (Effect Holdings StdException Unit)
  | .collector clock due portTaken =>
      if p.machine.pc.isCycle then some (collectMetrics cfg clock)
      else (p.machine.pc.program cfg.base { due, portTaken }).map onObjects
  | .main _ => p.machine.main.program.map onObjects

/-- Why a thread cannot take a step. -/
inductive Halted (cfg : Config) (p : Process) : Action → Prop where
  /-- the collector's thread has left `start` -/
  | returned {clock : Clock} {due portTaken : Bool}
      (h : p.machine.pc = .finished ∨ p.machine.pc = .failed) :
      Halted cfg p (.collector clock due portTaken)
  /-- the main thread has joined the collector's -/
  | joined {signal : Bool} (h : p.machine.main = .joined) : Halted cfg p (.main signal)
  /-- the main thread waits for the collector's -/
  | joining {signal : Bool} (h : p.machine.main = .joining)
      (hpc : ¬ (p.machine.pc = .finished ∨ p.machine.pc = .failed)) : Halted cfg p (.main signal)
  /-- the turns of a sleep cannot be computed -/
  | uncountable {clock : Clock} {due portTaken : Bool} (h : p.machine.Miscounts cfg.base) :
      Halted cfg p (.collector clock due portTaken)
  /-- the thread waits for an answer -/
  | unanswered {action : Action} {c : Effect Holdings StdException Unit}
      (hc : p.program cfg action = some c) (h : (c p.holdings).1 = .pending) :
      Halted cfg p action
  /-- the thread has found a message that does harm -/
  | harmed {action : Action} {c : Effect Holdings StdException Unit} {e : MqiEvent}
      (hc : p.program cfg action = some c) (h : (c p.holdings).1 = .undefined)
      (he : e ∈ recorded Holdings.log c p.holdings) (hharm : e.Oversize ∨ e.Wrapping) :
      Halted cfg p action

section Threads

variable {cfg : Config} {p p' : Process} {action : Action}

theorem blaming_onObjects {c : Collector.Program Unit} (hc : BlamingObjects c) :
    BlamingHoldings (onObjects c) := hc.zoom fun _ _ => rfl

theorem Process.program_cycle {clock : Clock} {due portTaken : Bool}
    (h : p.machine.pc.isCycle = true) :
    p.program cfg (.collector clock due portTaken) = some (collectMetrics cfg clock) := if_pos h

theorem Process.program_call {clock : Clock} {due portTaken : Bool}
    (h : p.machine.pc.isCycle = false) :
    p.program cfg (.collector clock due portTaken) =
      (p.machine.pc.program cfg.base { due, portTaken }).map onObjects :=
  if_neg (Bool.eq_false_iff.mp h)

/-- The calls at the places of the collector's thread that are no cycles. -/
theorem blaming_pcProgram {pc : Pc} {input : Collector.Input} {c : Collector.Program Unit}
    (hno : pc.isCycle = false) (hc : pc.program cfg.base input = some c) : BlamingObjects c := by
  cases pc with
  | connect =>
      obtain rfl := Option.some.inj hc
      exact blaming_client blaming_connect
  | setup =>
      obtain rfl := Option.some.inj hc
      exact blaming_setupAfterConnect _
  | rediscovery =>
      unfold Pc.program at hc
      dsimp only at hc
      split at hc
      · obtain rfl := Option.some.inj hc
        exact blaming_rediscover _
      · cases hc
  | lost =>
      obtain rfl := Option.some.inj hc
      exact blaming_renewClient _
  | first | cycle | once => cases hno
  | _ => cases hc

/-- The calls at the places of the main thread. -/
theorem blaming_mainProgram {main : MainPc} {c : Collector.Program Unit}
    (hc : main.program = some c) : BlamingObjects c := by
  cases main with
  | closing =>
      obtain rfl := Option.some.inj hc
      exact (blaming_monitor () blaming_close).bind fun _ => blaming_resetMonitor
  | disconnecting =>
      obtain rfl := Option.some.inj hc
      exact blaming_disconnecting
  | _ => cases hc

/-- What a thread runs has nothing but messages to blame. -/
theorem Process.program_blaming {c : Effect Holdings StdException Unit}
    (hc : p.program cfg action = some c) : BlamingHoldings c := by
  cases action with
  | main signal =>
      obtain ⟨c, hmain, rfl⟩ := Option.map_eq_some_iff.mp hc
      exact blaming_onObjects (blaming_mainProgram hmain)
  | collector clock due portTaken =>
      cases hcycle : p.machine.pc.isCycle with
      | true =>
          rw [Process.program_cycle hcycle] at hc
          obtain rfl := Option.some.inj hc
          exact blaming_collectMetrics cfg clock
      | false =>
          rw [Process.program_call hcycle] at hc
          obtain ⟨c, hpc, rfl⟩ := Option.map_eq_some_iff.mp hc
          exact blaming_onObjects (blaming_pcProgram hcycle hpc)

/-- None of the calls so far has found a message that is too long. -/
def Process.Fitting (p : Process) : Prop := ∀ e ∈ p.calls, ¬ e.Oversize

/-- A step finds no message that is too long. -/
theorem Process.step_fitting (hp : p.Fitting) (hstep : p.step cfg action = some p') :
    p'.Fitting := by
  have hobjects {c : Collector.Program Unit} (hc : BlamingObjects c) :
      Within (Maintains fun (_ : Unit) (o : Objects) => ∀ e ∈ o.session.log, ¬ e.Oversize) c :=
    within_maintains fun _ _ ho => hc.wp ho
  cases action with
  | main signal =>
      obtain ⟨m, hm, rfl⟩ := Option.map_eq_some_iff.mp hstep
      exact Collector.mainStep_within (fun c hc => hobjects (blaming_mainProgram hc)) hm () hp
  | collector clock due portTaken =>
      rcases Process.step_collector hstep with ⟨next, -, hcycle⟩ | ⟨hno, hmachine⟩
      · obtain ⟨outcome, hrun, hends⟩ := Process.collectCycle_ends hcycle
        have hwp := (blaming_collectMetrics cfg clock).wp (s := p.holdings) hp
        rcases hends with rfl | ⟨e, rfl⟩
        · have hbehind := of_wp_ok hwp hrun
          exact hbehind
        · have hbehind := of_wp_raised hwp hrun
          exact hbehind
      · exact Collector.collectorStep_within
          (fun c hc => hobjects (blaming_pcProgram (behindCycle_eq_none.mp hno) hc)) hmachine () hp

/-- A call that has no result is unanswered, or has found a message that does harm. -/
theorem halted_of_program {c : Effect Holdings StdException Unit}
    (hc : p.program cfg action = some c)
    (h : (c p.holdings).1 = .pending ∨ (c p.holdings).1 = .undefined) :
    Halted cfg p action := by
  rcases h with h | h
  · exact .unanswered hc h
  · obtain ⟨e, he, hharm⟩ := (Process.program_blaming hc).blames h
    exact .harmed hc h he hharm

/-- Why a step cannot be taken. -/
theorem Process.halted (hstep : p.step cfg action = none) : Halted cfg p action := by
  cases action with
  | main signal =>
      have hmachine := Option.map_eq_none_iff.mp hstep
      rcases Collector.ended_of_mainStep hmachine with (hjoined | ⟨hjoining, hends⟩) | ⟨c, hc, h⟩
      · exact .joined hjoined
      · exact .joining hjoining hends
      · exact halted_of_program (Option.map_eq_some_iff.mpr ⟨c, hc, rfl⟩) h
  | collector clock due portTaken =>
      unfold Process.step at hstep
      dsimp only at hstep
      cases hcycle : p.machine.pc.isCycle with
      | false =>
          rw [behindCycle_eq_none.mpr hcycle] at hstep
          have hmachine := Option.map_eq_none_iff.mp hstep
          rcases Collector.ended_of_collectorStep hmachine with hended | ⟨c, hc, h⟩ | hmiscounts
          · exact .returned hended
          · refine halted_of_program (c := onObjects c) ?_ h
            exact (Process.program_call hcycle).trans (Option.map_eq_some_iff.mpr ⟨c, hc, rfl⟩)
          · exact .uncountable hmiscounts
      | true =>
          cases hnext : behindCycle cfg p.machine.pc with
          | none =>
              rw [behindCycle_eq_none.mp hnext] at hcycle
              cases hcycle
          | some next =>
              rw [hnext] at hstep
              have hmachine := Option.map_eq_none_iff.mp hstep
              exact halted_of_program (Process.program_cycle hcycle)
                (Collector.unanswered_of_call hmachine)

end Threads

/-! ## Runs -/

section Runs

variable {cfg : Config}

/-- What holds in every state of a run: no call has found a message that is too long, and
a thread that cannot take a step has a reason. -/
structure Process.Blames (cfg : Config) (p : Process) : Prop where
  fitting : p.Fitting
  halted : ∀ action, p.step cfg action = none → Halted cfg p action

/-- In every run the threads go on, but for their ends, the answers that are to come, the
intervals that are too long and the messages that do harm. -/
theorem run_blamed {supply : List Reply} {actions : List Action} {trace : List Step}
    (hrun : history (Process.step cfg) (Process.initial cfg supply) actions = some trace) :
    ∀ t ∈ trace, t.after.Blames cfg := by
  intro t ht
  have hkept : KeptWhen (Process.step cfg) (fun _ => True) Process.Fitting :=
    fun _ _ _ h hstep _ => Process.step_fitting h hstep
  have hfitting : (Process.initial cfg supply).Fitting := fun _ he => absurd he List.not_mem_nil
  exact ⟨(hkept.of_mem hfitting hrun (fun _ _ => trivial) ht).2.2,
    fun action hstep => Process.halted hstep⟩

theorem run_blamed_countedRun :
    ∃ trace, countedRun 1 0 = some trace ∧ ∀ t ∈ trace, t.after.Blames countedQueue := by
  obtain ⟨trace, htrace, -⟩ := (Option.any_eq_true _ _).mp countedRun_calls
  exact ⟨trace, htrace, run_blamed htrace⟩

end Runs

end IbmmqExporter.Exporter
