/-
  Exporter/HandleGauges.lean --- the gauges of the counts of handles.

  In each cycle `collect_and_update_handle_metrics` asks for the counts of handles of every
  queue that is monitored.  A count that is positive is written to a gauge, another one is
  not.

  WHAT THE FILE PROVES.  Behind a cycle the gauge of a queue reads the last positive count
  that has been reported in the run.  So the gauges follow the reports in exactly the runs
  in which no count falls back to zero.
-/
import IbmmqExporter.Exporter.Rediscovery
import IbmmqExporter.Exporter.Series

set_option autoImplicit false

namespace IbmmqExporter.Exporter

open Foundation Effect Mq
open Metrics (Clock Collect Family LabelName Labels Measurement MetricsCollector Moves Registry
  Reported label)

/-! ## Reports -/

/-- The two counts of handles of a queue. -/
inductive HandleCount where
  | input
  | output
  deriving DecidableEq

namespace HandleCount

/-- The gauges of the count. -/
def family : HandleCount → Family
  | input => .queueInputHandles
  | output => .queueOutputHandles

/-- The count in a report. -/
def of (info : QueueInfo) : HandleCount → Int32
  | input => info.openInputCount
  | output => info.openOutputCount

end HandleCount

/-- What `get_queue_info` says of each queue that it succeeds for. -/
def queueInfos : List Bytes → Method (List (Bytes × QueueInfo))
  | [] => return []
  | qname :: queues => do
      let info ← getQueueInfo qname
      let infos ← queueInfos queues
      return (info.map fun i => (qname, i)).toList ++ infos

/-- What the loop over the handles is told. -/
def loopInfos (cachedQueues : List Bytes) : Method (List (Bytes × QueueInfo)) := do
  let connected ← client MQClient.connected
  if connected = false then return []
  else if cachedQueues = [] then return []
  else queueInfos cachedQueues

/-- The reports of a cycle: what its loop over the handles is told. -/
def handleReports (cfg : Config) : Effect Holdings StdException (List (Bytes × QueueInfo)) := do
  let cachedQueues ← beforeHandles cfg
  collect (Metrics.session (loopInfos cachedQueues))

/-- The reports, if the cycle comes to its loop over the handles. -/
def Holdings.reports (cfg : Config) (h : Holdings) : List (Bytes × QueueInfo) :=
  match (handleReports cfg h).1 with
  | .ok reports => reports
  | _ => []

/-- The reports of a step. -/
def Step.reports (cfg : Config) (t : Step) : List (Bytes × QueueInfo) :=
  if t.clock.isSome then t.before.holdings.reports cfg else []

/-- The positive counts that are reported of a queue. -/
def positives (k : HandleCount) (qname : Bytes) (reports : List (Bytes × QueueInfo)) : List ℚ :=
  reports.filterMap fun e =>
    if e.1 = qname ∧ 0 < k.of e.2 then some ((k.of e.2).toInt : ℚ) else none

theorem positives_append (k : HandleCount) (qname : Bytes)
    (reports reports' : List (Bytes × QueueInfo)) :
    positives k qname (reports ++ reports') =
      positives k qname reports ++ positives k qname reports' := List.filterMap_append

/-! ## The labels of a count -/

section Labels

/-- The metadata name none of the labels of a count, or give them the value they have. -/
structure LabelsSpared (cfg : Metrics.Config) : Prop where
  queueName :
    lastValue (cfg.metadataTags.zip cfg.metadataValues) Metrics.queueNameLabel = none
  pid : lastValue (cfg.metadataTags.zip cfg.metadataValues) Metrics.pidLabel = none
  owner : ∀ n ∈ [Metrics.useridLabel, Metrics.channelLabel, Metrics.appltagLabel,
      Metrics.connameLabel],
    ∀ v, lastValue (cfg.metadataTags.zip cfg.metadataValues) n = some v → v = []

/-- The labels name the queue, and no process that has it open. -/
structure Unowned (qname : Bytes) (ls : Labels) : Prop where
  queueName : ls.lookup Metrics.queueNameLabel = some qname
  owner : ∀ n ∈ [Metrics.useridLabel, Metrics.pidLabel, Metrics.channelLabel,
      Metrics.appltagLabel, Metrics.connameLabel], ls.lookup n = some []

variable {cfg : Metrics.Config}

/-- What is found in a series. -/
theorem lookup_series_eq (cfg : Metrics.Config) (x : Measurement) (n : LabelName) :
    (cfg.series x).lookup n =
      (lastValue (cfg.metadataTags.zip cfg.metadataValues) n).or
        ((x.entries cfg.origin).lookup n) := by
  have hseries : cfg.series x =
      overlay (cfg.metadataTags.zip cfg.metadataValues) (ofEntries (x.entries cfg.origin)) := rfl
  rw [hseries, lookup_overlay, lookup_ofEntries]

theorem handleLabels_eq (cfg : Metrics.Config) (qname : Bytes) :
    Metrics.handleLabels cfg qname = cfg.series (.handleCounts qname) := rfl

theorem LabelsSpared.unowned (h : LabelsSpared cfg) (qname : Bytes) :
    Unowned qname (Metrics.handleLabels cfg qname) := by
  have hempty {n : LabelName} (hentry : ((Measurement.handleCounts qname).entries cfg.origin).lookup
      n = some []) (htag : ∀ v, lastValue (cfg.metadataTags.zip cfg.metadataValues) n = some v →
      v = []) : (Metrics.handleLabels cfg qname).lookup n = some [] := by
    rw [handleLabels_eq, lookup_series_eq, hentry]
    cases hlast : lastValue (cfg.metadataTags.zip cfg.metadataValues) n with
    | none => rfl
    | some v => rw [htag v hlast, Option.some_or]
  constructor
  · rw [handleLabels_eq, lookup_series_eq, h.queueName]
    rfl
  · obtain ⟨huserid, hchannel, happltag, hconname, -⟩ := by
      simpa only [List.forall_mem_cons] using h.owner
    have hpid : ∀ v, lastValue (cfg.metadataTags.zip cfg.metadataValues) Metrics.pidLabel =
        some v → v = [] := by
      simp [h.pid]
    simp only [List.forall_mem_cons]
    exact ⟨hempty rfl huserid, hempty rfl hpid, hempty rfl hchannel, hempty rfl happltag,
      hempty rfl hconname, List.forall_mem_nil _⟩

theorem LabelsSpared.handleLabels_injective (h : LabelsSpared cfg) :
    Function.Injective (Metrics.handleLabels cfg) := by
  intro q q' heq
  have hq := (h.unowned q).queueName
  rw [heq, (h.unowned q').queueName] at hq
  exact (Option.some.inj hq).symm

/-- A measurement that is no count has a process, whose number is not empty. -/
theorem LabelsSpared.not_reported (h : LabelsSpared cfg) (k : HandleCount) (qname : Bytes) :
    ¬ Reported cfg k.family (Metrics.handleLabels cfg qname) := by
  rintro ⟨x, hx, hwrites, hls⟩
  have hpid := (h.unowned qname).owner Metrics.pidLabel (by simp)
  rw [hls, lookup_series_eq, h.pid, Option.none_or] at hpid
  cases x with
  | queueHandles reporter queueName proc =>
      have hdecimal : decimal proc.processId = [] := Option.some.inj hpid
      exact decimal_ne_nil _ hdecimal
  | handleCounts queueName => cases hx
  | publication plat pm =>
      obtain ⟨name, hname⟩ := hwrites
      cases k <;> cases hscope : Metrics.scopeOf pm <;>
        simp [HandleCount.family, Metrics.publicationFamily, hscope] at hname
  | _ => cases hpid

end Labels

/-! ## The loop over the handles -/

section Loop

variable {cfg : Metrics.Config} {k : HandleCount} {qname : Bytes}

/-- What the loop writes for a queue. -/
def writeHandles (cfg : Metrics.Config) (r : Registry) (e : Bytes × QueueInfo) : Registry :=
  Metrics.recordHandles .queueOutputHandles (Metrics.handleLabels cfg e.1) e.2.openOutputCount
    (Metrics.recordHandles .queueInputHandles (Metrics.handleLabels cfg e.1) e.2.openInputCount r)

/-- The loop has been told of the queues, and has written it. -/
def Told (cfg : Metrics.Config) (queues : List Bytes) (m m' : MetricsCollector) : Prop :=
  ∃ infos s, queueInfos queues m.session = (.ok infos, s) ∧
    m'.registry = infos.foldl (writeHandles cfg) m.registry

/-- A queue, and then the others. -/
theorem told_cons {queues : List Bytes} {m m₁ m' : MetricsCollector} {info : Option QueueInfo}
    (hinfo : getQueueInfo qname m.session = (.ok info, m₁.session))
    (hwrite : m₁.registry =
      (info.map fun i => (qname, i)).toList.foldl (writeHandles cfg) m.registry)
    (h : Told cfg queues m₁ m') : Told cfg (qname :: queues) m m' := by
  obtain ⟨infos, s, hinfos, hregistry⟩ := h
  refine ⟨(info.map fun i => (qname, i)).toList ++ infos, s, ?_, ?_⟩
  · unfold queueInfos
    rw [bind_of_ok hinfo, bind_of_ok hinfos]
    rfl
  · rw [List.foldl_append, ← hwrite, hregistry]

theorem wp_loop (queues : List Bytes) (m : MetricsCollector) :
    wp (forEach queues fun qname => do
        let info ← Metrics.session (getQueueInfo qname)
        match info with
        | none => return
        | some info => Metrics.record fun r => writeHandles cfg r (qname, info))
      (fun _ => Told cfg queues m) (fun _ _ => False) m := by
  induction queues generalizing m with
  | nil => exact ⟨[], m.session, rfl, rfl⟩
  | cons q queues ih =>
      rw [forEach_cons, wp_bind, wp_bind]
      refine wp_zoom.mpr ?_
      refine wp_mono (wp_run (getQueueInfo q) m.session) (fun info s hinfo => ?_) fun e s he => ?_
      · have hrest (r : Registry) (hr : r = (info.map fun i => (q, i)).toList.foldl
            (writeHandles cfg) m.registry) :=
          wp_mono (ih { m with session := s, registry := r })
            (fun _ m' => told_cons (m := m) hinfo hr) fun _ _ h => h
        cases info with
        | none => exact hrest _ rfl
        | some info => exact hrest _ rfl
      · exact neverRaises_getQueueInfo q m.session e (congrArg Prod.fst he)

/-- The method writes what the loop is told. -/
theorem wp_collectAndUpdateHandleMetrics (queues : List Bytes) (m : MetricsCollector) :
    wp (Metrics.collectAndUpdateHandleMetrics cfg queues)
      (fun _ m' => ∃ infos s, loopInfos queues m.session = (.ok infos, s) ∧
        m'.registry = infos.foldl (writeHandles cfg) m.registry)
      (fun _ _ => False) m := by
  unfold Metrics.collectAndUpdateHandleMetrics
  refine wp_bind_of_ok rfl ?_
  have hloop : loopInfos queues m.session =
      (if m.session.client.connected = false then pure []
        else if queues = [] then pure [] else queueInfos queues : Method _) m.session := rfl
  rw [hloop]
  by_cases hconnected : m.session.client.connected = false
  · rw [if_pos hconnected, if_pos hconnected]
    exact ⟨[], m.session, rfl, rfl⟩
  rw [if_neg hconnected, if_neg hconnected]
  by_cases hqueues : queues = []
  · rw [if_pos hqueues, if_pos hqueues]
    exact ⟨[], m.session, rfl, rfl⟩
  rw [if_neg hqueues, if_neg hqueues]
  exact wp_loop queues m

/-! ## What is written of a queue -/

theorem recordHandles_apply (f f' : Family) (ls ls' : Labels) (count : Int32) (r : Registry) :
    Metrics.recordHandles f ls count r f' ls' =
      if f' = f ∧ ls' = ls ∧ 0 < count then some (count.toInt : ℚ) else r f' ls' := by
  unfold Metrics.recordHandles
  by_cases hcount : 0 < count
  · simp [hcount]
  · simp [hcount]

/-- One report. -/
theorem writeHandles_apply (h : LabelsSpared cfg) (r : Registry) (e : Bytes × QueueInfo) :
    writeHandles cfg r e k.family (Metrics.handleLabels cfg qname) =
      ((positives k qname [e]).getLast?).or (r k.family (Metrics.handleLabels cfg qname)) := by
  have hlabels : Metrics.handleLabels cfg qname = Metrics.handleLabels cfg e.1 ↔ e.1 = qname :=
    h.handleLabels_injective.eq_iff.trans eq_comm
  unfold writeHandles positives
  rw [recordHandles_apply, recordHandles_apply]
  cases k with
  | input =>
      by_cases hreport : e.1 = qname ∧ 0 < e.2.openInputCount
      · simp [HandleCount.family, HandleCount.of, hreport]
      · simp [HandleCount.family, HandleCount.of, hlabels, hreport]
  | output =>
      by_cases hreport : e.1 = qname ∧ 0 < e.2.openOutputCount
      · simp [HandleCount.family, HandleCount.of, hreport]
      · simp [HandleCount.family, HandleCount.of, hlabels, hreport]

/-- Behind the loop a gauge reads the last positive count. -/
theorem foldl_writeHandles (h : LabelsSpared cfg) (infos : List (Bytes × QueueInfo))
    (r : Registry) :
    infos.foldl (writeHandles cfg) r k.family (Metrics.handleLabels cfg qname) =
      ((positives k qname infos).getLast?).or
        (r k.family (Metrics.handleLabels cfg qname)) := by
  induction infos generalizing r with
  | nil => rfl
  | cons e infos ih =>
      rw [List.foldl_cons, ih, writeHandles_apply h, ← Option.or_assoc, ← List.getLast?_append,
        ← positives_append]
      rfl

end Loop

/-! ## A cycle -/

section Cycle

variable {cfg : Config}

/-- The gauges read the last positive counts of some reports, or what they read before. -/
def Exports (cfg : Config) (reports : List (Bytes × QueueInfo)) (r r' : Registry) : Prop :=
  ∀ (k : HandleCount) (qname : Bytes), r' k.family (Metrics.handleLabels cfg.metrics qname) =
    ((positives k qname reports).getLast?).or
      (r k.family (Metrics.handleLabels cfg.metrics qname))

/-- The rest of a cycle leaves the gauges alone. -/
theorem exports_of_moves (h : LabelsSpared cfg.metrics) {r r' : Registry}
    (hmoves : Moves (Reported cfg.metrics) r r') : Exports cfg [] r r' :=
  fun k qname => hmoves.eq (h.not_reported k qname)

theorem Exports.trans {reports reports' : List (Bytes × QueueInfo)} {r r' r'' : Registry}
    (h : Exports cfg reports r r') (h' : Exports cfg reports' r' r'') :
    Exports cfg (reports ++ reports') r r'' := by
  intro k qname
  rw [h' k qname, h k qname, positives_append, List.getLast?_append, Option.or_assoc]

theorem wp_handles (h : LabelsSpared cfg.metrics) (cachedQueues : List Bytes) (o : Holdings) :
    wp (handles cfg cachedQueues)
      (fun _ o' => ∃ infos s, loopInfos cachedQueues o.objects.session = (.ok infos, s) ∧
        Exports cfg infos o.registry o'.registry)
      (fun _ _ => False) o := by
  unfold handles collect attempt Collector.metrics
  rw [wp_zoom, wp_zoom, wp_tryCatch]
  refine wp_mono (wp_collectAndUpdateHandleMetrics cachedQueues _) ?_ fun _ _ h => h.elim
  rintro _ m' ⟨infos, s, hinfos, hregistry⟩
  refine ⟨infos, s, hinfos, fun k qname => ?_⟩
  exact (congrFun (congrFun hregistry _) _).trans (foldl_writeHandles h infos _)

/-- A cycle leaves in the gauges of a queue the last positive count of its reports. -/
theorem wp_collectMetrics_handles (h : LabelsSpared cfg.metrics) (clock : Clock) (o : Holdings) :
    wp (collectMetrics cfg clock)
      (fun _ o' => Exports cfg (o.reports cfg) o.registry o'.registry)
      (fun _ o' => Exports cfg (o.reports cfg) o.registry o'.registry) o := by
  rw [collectMetrics_eq, wp_bind]
  unfold Holdings.reports handleReports
  have hbefore := wp_and (moves_beforeHandles cfg o) (wp_run (beforeHandles cfg) o)
  refine wp_mono hbefore ?_ ?_
  · rintro cachedQueues o₁ ⟨hmoves, hrun⟩
    rw [bind_of_ok hrun, wp_bind]
    refine wp_mono (wp_handles h cachedQueues o₁) ?_ fun _ _ h => h.elim
    rintro _ o₂ ⟨infos, s, hinfos, hexports⟩
    have hreports : (collect (Metrics.session (loopInfos cachedQueues)) o₁).1 = .ok infos :=
      congrArg Prod.fst hinfos
    rw [hreports]
    have hend (o₃ : Holdings) (hmoves' : Moves (Reported cfg.metrics) o₂.registry o₃.registry) :
        Exports cfg infos o.registry o₃.registry := by
      have := ((exports_of_moves h hmoves).trans hexports).trans (exports_of_moves h hmoves')
      rwa [List.nil_append, List.append_nil] at this
    exact wp_mono (moves_behindHandles cfg clock cachedQueues o₂) (fun _ => hend) fun _ => hend
  · rintro e o₁ ⟨hmoves, hrun⟩
    rw [bind_of_raised hrun]
    exact exports_of_moves h hmoves

end Cycle

/-! ## What is asked -/

/-- A gauge reads the count, or there is none and the count is zero. -/
def ReadsCount (value : Option ℚ) (count : Int32) : Prop :=
  value = some (count.toInt : ℚ) ∨ value = none ∧ count = 0

/-- What is asked of a run: behind a cycle that has been told of a queue, the gauges of the
queue that name no owner read its counts. -/
def HandlesFollow (cfg : Config) (trace : List Step) : Prop :=
  ∀ t ∈ trace, ∀ qname info, lastValue (t.reports cfg) qname = some info →
    ∀ k : HandleCount, Unowned qname (Metrics.handleLabels cfg.metrics qname) ∧
      ReadsCount
        (t.after.holdings.registry k.family (Metrics.handleLabels cfg.metrics qname))
        (k.of info)

/-- No count falls back to zero: where one is not positive it is zero, and none of the
queue has been positive before. -/
def CountsStayUp (cfg : Config) (trace : List Step) : Prop :=
  ∀ before t behind, trace = before ++ t :: behind →
    ∀ qname info, lastValue (t.reports cfg) qname = some info → ∀ k : HandleCount,
      0 < k.of info ∨ k.of info = 0 ∧
        ∀ e ∈ before.flatMap (Step.reports cfg) ++ t.reports cfg, e.1 = qname → ¬ 0 < k.of e.2

section Reading

variable {k : HandleCount} {qname : Bytes} {reports : List (Bytes × QueueInfo)}
  {info : QueueInfo}

theorem mem_positives {v : ℚ} :
    v ∈ positives k qname reports ↔
      ∃ e ∈ reports, e.1 = qname ∧ 0 < k.of e.2 ∧ ((k.of e.2).toInt : ℚ) = v := by
  unfold positives
  simp [List.mem_filterMap, and_assoc]

/-- The last report is the last positive one, if it is positive. -/
theorem getLast?_positives (h : lastValue reports qname = some info) (hpos : 0 < k.of info) :
    (positives k qname reports).getLast? = some ((k.of info).toInt : ℚ) := by
  obtain ⟨behind, before, hreverse, hothers⟩ := List.lookup_eq_some_iff.mp h
  have hnone : positives k qname behind = [] := by
    refine List.filterMap_eq_nil_iff.mpr fun e he => if_neg fun hreport => ?_
    exact absurd (hothers e he) (by simp [hreport.1])
  have hpositives : positives k qname reports.reverse =
      ((k.of info).toInt : ℚ) :: positives k qname before := by
    rw [hreverse]
    unfold positives at hnone ⊢
    rw [List.filterMap_append, hnone, List.nil_append, List.filterMap_cons_some]
    exact if_pos ⟨rfl, hpos⟩
  rw [List.getLast?_eq_head?_reverse]
  unfold positives at hpositives ⊢
  rw [← List.filterMap_reverse, hpositives]
  rfl

/-- When the last positive count is the count of the last report. -/
theorem readsCount_iff (h : lastValue reports qname = some info) :
    ReadsCount (positives k qname reports).getLast? (k.of info) ↔
      0 < k.of info ∨
        k.of info = 0 ∧ ∀ e ∈ reports, e.1 = qname → ¬ 0 < k.of e.2 := by
  have hempty : (positives k qname reports).getLast? = none ↔
      ∀ e ∈ reports, e.1 = qname → ¬ 0 < k.of e.2 := by
    rw [List.getLast?_eq_none_iff, List.eq_nil_iff_forall_not_mem]
    constructor
    · exact fun hnone e he hqname hpos => hnone _ (mem_positives.mpr ⟨e, he, hqname, hpos, rfl⟩)
    · intro hnone v hv
      obtain ⟨e, he, hqname, hpos, -⟩ := mem_positives.mp hv
      exact hnone e he hqname hpos
  constructor
  · rintro (hlast | ⟨hnone, hzero⟩)
    · obtain ⟨e, -, -, hpos, hcount⟩ := mem_positives.mp (List.mem_of_getLast? hlast)
      left
      rw [Int32.lt_iff_toInt_lt] at hpos ⊢
      rwa [← Int.cast_inj.mp hcount]
    · exact Or.inr ⟨hzero, hempty.mp hnone⟩
  · rintro (hpos | ⟨hzero, hnone⟩)
    · exact Or.inl (getLast?_positives h hpos)
    · exact Or.inr ⟨hempty.mpr hnone, hzero⟩

end Reading

/-! ## Runs -/

section Runs

variable {cfg : Config}

/-- The gauges of the counts read the last positive ones of some reports. -/
def Exported (cfg : Config) (reports : List (Bytes × QueueInfo)) (p : Process) : Prop :=
  ∀ (k : HandleCount) (qname : Bytes),
    p.holdings.registry k.family (Metrics.handleLabels cfg.metrics qname) =
      (positives k qname reports).getLast?

/-- Every step keeps to the reports so far. -/
theorem gathers_exported (h : LabelsSpared cfg.metrics) :
    Gathers (Process.step cfg) (Step.reports cfg) (Exported cfg) := by
  intro reports p action p' hexported hstep
  have hexports : Exports cfg (Step.reports cfg ⟨action, p, p'⟩) p.holdings.registry
      p'.holdings.registry := by
    unfold Step.reports
    cases hclock : Step.clock ⟨action, p, p'⟩ with
    | none =>
        rw [Process.step_between hclock hstep]
        exact fun k qname => rfl
    | some clock =>
        exact Process.step_cycle_wp (Q := fun o => Exports cfg (p.holdings.reports cfg)
          p.holdings.registry o.registry) (wp_collectMetrics_handles h clock p.holdings)
          hclock hstep
  intro k qname
  rw [hexports k qname, hexported k qname, positives_append, List.getLast?_append]

/-- The gauges follow the reports if and only if no count falls back to zero. -/
theorem handlesFollow_iff (h : LabelsSpared cfg.metrics) {supply : List Reply}
    {actions : List Action} {trace : List Step}
    (hrun : history (Process.step cfg) (Process.initial cfg supply) actions = some trace) :
    HandlesFollow cfg trace ↔ CountsStayUp cfg trace := by
  have hinitial : Exported cfg [] (Process.initial cfg supply) := fun _ _ => rfl
  have hgauge {before behind : List Step} {t : Step} (htrace : trace = before ++ t :: behind) :
      Exported cfg (before.flatMap (Step.reports cfg) ++ t.reports cfg) t.after :=
    (gathers_exported h).of_append hinitial (htrace ▸ hrun)
  have hlast {before : List Step} {t : Step} {qname : Bytes} {info : QueueInfo}
      (hreport : lastValue (t.reports cfg) qname = some info) :
      lastValue (before.flatMap (Step.reports cfg) ++ t.reports cfg) qname = some info := by
    rw [lastValue_append, hreport, Option.some_or]
  constructor
  · intro hfollow before t behind htrace qname info hreport k
    have hreads := (hfollow t (htrace ▸ by simp) qname info hreport k).2
    rw [hgauge htrace k qname] at hreads
    exact (readsCount_iff (hlast hreport)).mp hreads
  · intro hstay t ht qname info hreport k
    obtain ⟨before, behind, htrace⟩ := List.append_of_mem ht
    refine ⟨h.unowned qname, ?_⟩
    rw [hgauge htrace k qname]
    exact (readsCount_iff (hlast hreport)).mpr (hstay before t behind htrace qname info hreport k)

end Runs

/-! ## A queue that is closed -/

/-- A configuration with one queue, without statuses and publications. -/
def countedQueue : Config :=
  { queueManager := ascii "QM1", continuous := true, interval := 0, usePublications := false
    monitoredQueues := [ascii "APP.A"], useStatus := false }

/-- The answers to an inquiry about a queue with some input handles and an output
handle. -/
def inquiryReplies (count : Int32) : List Reply :=
  [{ cc := .ok, handle := ⟨106, by decide⟩ }, { cc := .ok, attrs := [0, count, 1, 5000] },
    { cc := .ok }]

/-- The answers of a cycle: there is no message, and both loops ask for the queue. -/
def cycleReplies (count : Int32) : List Reply :=
  List.replicate 2 { cc := .failed, rc := mqrcNoMsgAvailable } ++
    discoveryReplies (ascii "APP.A") ++ inquiryReplies count ++ inquiryReplies count

/-- The run of two cycles in which the queue has these input handles. -/
def countedRun (first second : Int32) : Option (List Step) :=
  history (Process.step countedQueue)
    (Process.initial countedQueue
      (openingReplies ++ discoveryReplies (ascii "APP.A") ++ cycleReplies first ++
        cycleReplies second))
    (List.replicate 14 (.collector {} false false))

/-- All counts of the reports of a step are positive. -/
def countsPositive (t : Step) : Bool :=
  (t.reports countedQueue).all fun e =>
    decide (0 < e.2.openInputCount) && decide (0 < e.2.openOutputCount)

theorem countedRun_positive :
    ((countedRun 2 1).any fun trace =>
      trace.all countsPositive && trace.any fun t => !(t.reports countedQueue).isEmpty) = true := by
  decide +kernel

theorem labelsSpared_countedQueue : LabelsSpared countedQueue.metrics where
  queueName := rfl
  pid := rfl
  owner := fun _ _ _ h => nomatch h

theorem handlesFollow_iff_countedRun :
    ∃ trace, countedRun 2 1 = some trace ∧
      (∃ t ∈ trace, t.reports countedQueue ≠ []) ∧ HandlesFollow countedQueue trace := by
  obtain ⟨trace, htrace, hcheck⟩ := (Option.any_eq_true _ _).mp countedRun_positive
  obtain ⟨hall, hany⟩ := Bool.and_eq_true_iff.mp hcheck
  obtain ⟨t, ht, hsome⟩ := List.any_eq_true.mp hany
  refine ⟨trace, htrace, ⟨t, ht, by simpa using hsome⟩, ?_⟩
  refine (handlesFollow_iff labelsSpared_countedQueue htrace).mpr ?_
  rintro before t behind rfl qname info hreport k
  have hpositive := List.all_eq_true.mp hall t (by simp)
  obtain ⟨behind', before', hreverse, -⟩ := List.lookup_eq_some_iff.mp hreport
  have hmem : (qname, info) ∈ t.reports countedQueue := by
    rw [← List.mem_reverse, hreverse]
    simp
  have hcounts := List.all_eq_true.mp hpositive _ hmem
  rw [Bool.and_eq_true, decide_eq_true_eq, decide_eq_true_eq] at hcounts
  cases k with
  | input => exact Or.inl hcounts.1
  | output => exact Or.inl hcounts.2

/-- A step is told of no input handle, and the gauge reads one. -/
def stale (t : Step) : Bool :=
  (lastValue (t.reports countedQueue) (ascii "APP.A")).any fun info =>
    decide (info.openInputCount = 0) &&
      decide (t.after.holdings.registry .queueInputHandles
        (Metrics.handleLabels countedQueue.metrics (ascii "APP.A")) = some 1)

theorem countedRun_stale : ((countedRun 1 0).any fun trace => trace.any stale) = true := by
  decide +kernel

/-- The count falls back to zero, and the gauge does not. -/
theorem not_handlesFollow_countedRun :
    ¬ ∀ (cfg : Config) (supply : List Reply) (actions : List Action) (trace : List Step),
      history (Process.step cfg) (Process.initial cfg supply) actions = some trace →
        HandlesFollow cfg trace := by
  intro h
  obtain ⟨trace, htrace, hany⟩ := (Option.any_eq_true _ _).mp countedRun_stale
  obtain ⟨t, ht, hstale⟩ := List.any_eq_true.mp hany
  obtain ⟨info, hreport, hcheck⟩ := (Option.any_eq_true _ _).mp hstale
  rw [Bool.and_eq_true, decide_eq_true_eq, decide_eq_true_eq] at hcheck
  obtain ⟨hzero, hone⟩ := hcheck
  have hreads := (h countedQueue _ _ trace htrace t ht _ info hreport .input).2
  unfold HandleCount.family HandleCount.of at hreads
  rw [hone, hzero] at hreads
  exact absurd hreads (by simp [ReadsCount])

end IbmmqExporter.Exporter
