/-
  Exporter/Rediscovery.lean --- what a rediscovery has for an effect.

  `run_continuous` fills the list of the discovered queues anew when the interval is
  over.  The monitor does not hear of it: `create_subscriptions` is called by
  `setup_after_connect` alone.

  WHAT THE FILE PROVES.  Rediscoveries take effect if and only if there is nothing to
  effect: every one finds the queues that are in the list already.
-/
import IbmmqExporter.Collector.Rediscovery
import IbmmqExporter.Exporter.Cycle
import IbmmqExporter.Monitor.Metadata

set_option autoImplicit false

namespace IbmmqExporter.Exporter

open Foundation Mq
open Collector (Machine Objects Watching)
open Monitor (ClassNode Group Metadata QueueTopic TypeNode Watched metadataReplies)

/-! ## What is asked -/

/-- The step as one of the machine, with a cycle left open. -/
def Step.machine (t : Step) : Collector.Step :=
  ⟨t.action.with [], t.before.machine, t.after.machine⟩

/-- What is asked of a run: behind every rediscovery the queues with a live subscription
are those that it has found, for every type with a topic for each queue. -/
def RediscoveriesTakeEffect (cfg : Config) (trace : List Step) : Prop :=
  ∀ t ∈ trace, t.machine.rediscovers cfg.base = true → t.after.machine.objects.Matched

/-- Every rediscovery finds the queues that are in the list. -/
def RediscoveriesFindSame (cfg : Config) (trace : List Step) : Prop :=
  ∀ t ∈ trace, t.machine.FindsSame cfg.base

/-- The queue manager does its part in every state of a run. -/
def WellServed (trace : List Step) : Prop := ∀ t ∈ trace, t.after.machine.objects.Served

/-! ## Runs -/

section Runs

variable {cfg : Config}

/-- Whatever the cycles do, the machine's invariant is kept. -/
theorem keptWhen_watching (cfg : Config) :
    KeptWhen (Process.step cfg)
      (fun t : Step => t.after.machine.objects.Served ∧
        (t.machine.rediscovers cfg.base = true → t.after.machine.objects.Matched))
      fun p => Watching cfg.base p.machine := by
  refine (Collector.keptWhen_watching cfg.base).refines (step_refines cfg) ?_
  rintro ⟨action, p, p'⟩ ⟨action', m, m'⟩ ⟨⟨requests, rfl⟩, rfl, rfl⟩ ⟨hserved, hmatched⟩
  refine ⟨hserved, fun hre => hmatched ?_⟩
  cases action with
  | collector clock due portTaken => exact hre
  | main signal => exact hre

/-- A step that rediscovers is one of the machine. -/
theorem step_of_rediscovers {t : Step} (hre : t.machine.rediscovers cfg.base = true)
    (hstep : t.before.step cfg t.action = some t.after) :
    t.machine.before.step cfg.base t.machine.action = some t.machine.after := by
  rcases t with ⟨action, p, p'⟩
  cases action with
  | main signal => cases hre
  | collector clock due portTaken =>
      obtain ⟨hpc, -⟩ := of_decide_eq_true hre
      change p.machine.pc = .rediscovery at hpc
      rcases Process.step_collector hstep with ⟨next, hnext, -⟩ | ⟨-, hmachine⟩
      · rw [hpc] at hnext
        cases hnext
      · exact hmachine

theorem rediscovery_matched_iff {t : Step} (hre : t.machine.rediscovers cfg.base = true)
    (hinv : Watching cfg.base t.before.machine)
    (hstep : t.before.step cfg t.action = some t.after) :
    t.after.machine.objects.Matched ↔ t.machine.FindsSame cfg.base :=
  Collector.rediscovery_matched_iff hre hinv (step_of_rediscovers hre hstep)

/-- In a run in which the queue manager does its part, rediscoveries take effect if and
only if every one finds the queues that are in the list. -/
theorem rediscoveriesTakeEffect_iff {supply : List Reply} {actions : List Action}
    {trace : List Step}
    (hrun : history (Process.step cfg) (Process.initial cfg supply) actions = some trace)
    (hserved : WellServed trace) :
    RediscoveriesTakeEffect cfg trace ↔ RediscoveriesFindSame cfg trace := by
  have hinitial : Watching cfg.base (Process.initial cfg supply).machine :=
    Collector.watching_initial cfg.base supply
  constructor
  · intro heffect t ht hre
    obtain ⟨hstep, hinv, -⟩ := (keptWhen_watching cfg).of_mem hinitial hrun
      (fun t ht => ⟨hserved t ht, heffect t ht⟩) ht
    exact (rediscovery_matched_iff hre hinv hstep).mp (heffect t ht hre) hre
  · intro hsame t ht hre
    have hkept : KeptWhen (Process.step cfg)
        (fun t : Step => t.after.machine.objects.Served ∧ t.machine.FindsSame cfg.base)
        fun p => Watching cfg.base p.machine := by
      rintro p action p' hinv hstep ⟨hdone, hfinds⟩
      refine keptWhen_watching cfg p action p' hinv hstep ⟨hdone, fun hre => ?_⟩
      exact (rediscovery_matched_iff hre hinv hstep).mpr hfinds
    obtain ⟨hstep, hinv, -⟩ := hkept.of_mem hinitial hrun
      (fun t ht => ⟨hserved t ht, hsame t ht⟩) ht
    exact (rediscovery_matched_iff hre hinv hstep).mpr (hsame t ht)

end Runs

/-! ## A queue that appears -/

/-- A configuration with a pattern for queues, that rediscovers every hour. -/
def hourly : Config :=
  { queueManager := ascii "QM1", continuous := true, interval := 0, rediscoverInterval := 3600
    monitoredQueues := [ascii "APP.*"], useStatus := false }

/-- The header of a metadata message. -/
def announcement : Pcf.PCFHeader :=
  { type := 1, strucLength := 36, version := 3, command := 0, msgSeqNumber := 1, control := 1
    compCode := 0, reason := 0, parameterCount := 1 }

/-- The group of the element that counts the `MQOPEN` calls. -/
def openCount : Group where
  groupId := 8001
  members :=
    [.integer Monitor.mqiamoMonitorElement 1, .integer Monitor.mqiamoMonitorDatatype 2,
      .string Monitor.mqcamoMonitorDesc 0 ⟨ascii "MQOPEN count", by decide, by decide⟩ (by decide)]
  short := by simp

/-- The type `OPENCLOSE`, which has a topic for each queue. -/
def openClose : TypeNode where
  groupId := 8002
  members :=
    [.string Monitor.mqcamoMonitorType 0 ⟨ascii "OPENCLOSE", by decide, by decide⟩ (by decide),
      .string Monitor.mqcaTopicString 0
        ⟨ascii "METADATA/STATQ/OPENCLOSE", by decide, by decide⟩ (by decide)]
  short := by decide
  hdr := announcement
  strucLength_eq := rfl
  items :=
    [.inl (.string Monitor.mqcaTopicString 0 ⟨ascii "STATQ/%s/OPENCLOSE", by decide, by decide⟩
        (by decide)),
      .inr openCount]

/-- The class `STATQ` with this type. -/
def statq : ClassNode where
  groupId := 8003
  members :=
    [.string Monitor.mqcamoMonitorClass 0 ⟨ascii "STATQ", by decide, by decide⟩ (by decide),
      .string Monitor.mqcaTopicString 0 ⟨ascii "METADATA/STATQ", by decide, by decide⟩ (by decide)]
  short := by decide
  hdr := announcement
  strucLength_eq := rfl
  items := [.inr openClose]

/-- The metadata with this class. -/
def statqTree : Metadata where
  hdr := announcement
  strucLength_eq := rfl
  items := [.inr statq]

/-- The answers up to the opening of the queues of statistics and accounting. -/
def openingReplies : List Reply :=
  List.replicate 4 { cc := .ok } ++
    [{ cc := .ok, handle := ⟨102, by decide⟩ }, { cc := .ok, handle := ⟨103, by decide⟩ }]

/-- The answers to a subscription. -/
def subscriptionReplies : List Reply :=
  [{ cc := .ok, handle := ⟨104, by decide⟩, objectName := ascii "EXPORTER.PUB.1" },
    { cc := .ok, handle := ⟨105, by decide⟩ }]

/-- The answers of a queue manager with one queue, up to the end of the first cycle. -/
def oneQueue (qname : Bytes) : List Reply :=
  openingReplies ++ discoveryReplies qname ++
    ((statqTree.exchange (ascii "QM1")).flatMap fun x => metadataReplies x.2) ++
    subscriptionReplies ++
    List.replicate 2 { cc := .failed, rc := mqrcNoMsgAvailable } ++ discoveryReplies qname ++
    List.replicate 6 { cc := .ok } ++ [{ cc := .failed, rc := mqrcNoMsgAvailable }]

/-- The run in which a rediscovery finds this queue. -/
def rediscoveringRun (found : Bytes) : Option (List Step) :=
  history (Process.step hourly)
    (Process.initial hourly (oneQueue (ascii "APP.A") ++ discoveryReplies found))
    (List.replicate 13 (.collector {} true false))

/-- The queue that is watched for. -/
def statqTopic : QueueTopic where
  className := ascii "STATQ"
  typeName := ascii "OPENCLOSE"
  before := ascii "STATQ/"
  behind := ascii "/OPENCLOSE"

/-- A step is a rediscovery behind which a queue in the list has no subscription. -/
def unwatched (queue : Bytes) (t : Step) : Bool :=
  t.machine.rediscovers hourly.base && t.after.machine.objects.discoveredQueues.contains queue &&
    t.after.machine.objects.monitor.any fun m =>
      decide (statqTopic ∈ Monitor.queueTopics m.classes) &&
        !decide (Watched (liveSubscriptions t.after.machine.objects.session.log) m statqTopic queue)

theorem rediscoveringRun_unwatched :
    ((rediscoveringRun (ascii "APP.B")).any fun trace =>
      (trace.all fun t => decide t.after.machine.objects.Served) &&
        trace.any (unwatched (ascii "APP.B"))) = true := by
  decide +kernel

/-- In this run the queue manager does its part, and a queue that appears is not
subscribed to. -/
theorem exists_rediscoveringRun :
    ∃ trace, rediscoveringRun (ascii "APP.B") = some trace ∧ WellServed trace ∧
      ∃ t ∈ trace, unwatched (ascii "APP.B") t = true := by
  obtain ⟨trace, htrace, hall⟩ := (Option.any_eq_true _ _).mp rediscoveringRun_unwatched
  obtain ⟨hserved, hany⟩ := Bool.and_eq_true_iff.mp hall
  exact ⟨trace, htrace, fun t ht => of_decide_eq_true (List.all_eq_true.mp hserved t ht),
    List.any_eq_true.mp hany⟩

theorem rediscoveriesTakeEffect_iff_rediscoveringRun :
    ∃ trace, rediscoveringRun (ascii "APP.B") = some trace ∧
      (RediscoveriesTakeEffect hourly trace ↔ RediscoveriesFindSame hourly trace) := by
  obtain ⟨trace, htrace, hserved, -⟩ := exists_rediscoveringRun
  exact ⟨trace, htrace, rediscoveriesTakeEffect_iff htrace hserved⟩

/-- So the rediscovery has no effect there. -/
theorem not_rediscoveriesTakeEffect_rediscoveringRun :
    ¬ ∀ (cfg : Config) (supply : List Reply) (actions : List Action) (trace : List Step),
      history (Process.step cfg) (Process.initial cfg supply) actions = some trace →
        WellServed trace → RediscoveriesTakeEffect cfg trace := by
  intro h
  obtain ⟨trace, htrace, hserved, t, ht, hunwatched⟩ := exists_rediscoveringRun
  unfold unwatched at hunwatched
  rw [Bool.and_eq_true, Bool.and_eq_true, List.contains_iff_mem] at hunwatched
  obtain ⟨⟨hre, hlisted⟩, hany⟩ := hunwatched
  obtain ⟨m, hm, hwatch⟩ := (Option.any_eq_true _ _).mp hany
  rw [Bool.and_eq_true, decide_eq_true_eq, Bool.not_eq_true', decide_eq_false_iff_not] at hwatch
  obtain ⟨htopic, hnone⟩ := hwatch
  have hmatched := h hourly _ _ trace htrace hserved t ht hre
  exact hnone ((hmatched m hm statqTopic htopic _).mpr hlisted)

end IbmmqExporter.Exporter
