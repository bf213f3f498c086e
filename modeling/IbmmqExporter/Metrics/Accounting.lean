/-
  Metrics/Accounting.lean --- the counts of the accounting messages.

  `process_accounting_message` adds its counts to the gauges of the MQI, and
  `update_mqi_gauges` sets the same gauges, under the same labels, to the numbers of a
  statistics message.

  WHAT THE FILE PROVES.  In which runs the gauges never fall below what has been
  accounted: those in which, in each cycle, the last number reported for a series is
  not below what has been accounted for it in earlier cycles.  And when an application
  has the same labels in both kinds of messages.
-/
import Mathlib.Data.Rat.Lemmas
import Mathlib.Algebra.Order.Ring.Rat
import Mathlib.Tactic.NormNum
import IbmmqExporter.Foundation.Gauge
import IbmmqExporter.Metrics.Batch
import IbmmqExporter.Pcf.Extractors
import IbmmqExporter.Pcf.RoundTrip

set_option autoImplicit false

namespace IbmmqExporter.Metrics

open Foundation Pcf Mq

/-! ## What a message says about a series -/

/-- The numbers that both kinds of messages carry. -/
def accountedCounters : List MqiCounter := [.opens, .closes, .puts, .gets, .commits, .backouts]

/-- The labels that `update_mqi_gauges` and `process_accounting_message` write to. -/
def mqiLabels (cfg : Config) (qmgr app tag uid conn chan : Bytes) : Labels :=
  cfg.addMetaLabels (labels
    [(label "queue_manager" validLabelName_queue_manager, qmgr),
     (label "application_name" validLabelName_application_name, app),
     (label "application_tag" validLabelName_application_tag, tag),
     (label "user_identifier" validLabelName_user_identifier, uid),
     (label "connection_name" validLabelName_connection_name, conn),
     (label "channel_name" validLabelName_channel_name, chan)])

/-- The queue manager of a statistics message. -/
def statisticsQmgr (cfg : Config) (stats : StatisticsData) : Bytes :=
  if stats.queueManager = [] then cfg.queueManager else stats.queueManager

/-- The labels of a statistics message about the MQI. -/
def statisticsLabels (cfg : Config) (stats : StatisticsData) (mqi : MQIStatistics) : Labels :=
  mqiLabels cfg (statisticsQmgr cfg stats) mqi.applicationName mqi.applicationTag
    mqi.userIdentifier mqi.connectionName mqi.channelName

/-- The labels of an accounting message. -/
def accountingLabels (cfg : Config) (acct : AccountingData) : Labels :=
  let info := acct.connectionInfo.getD {}
  mqiLabels cfg (if acct.queueManager = [] then cfg.queueManager else acct.queueManager)
    info.applicationName info.applicationTag info.userIdentifier info.connectionName
    info.channelName

/-- What the parser makes of a message, if it accepts it. -/
def reading (e : QueueType × MQMessage) : Option ParsedMessage :=
  match parseMessage e.2.data (parseType e.1) with
  | .ok result => result
  | _ => none

/-- The number that a message of the statistics queue reports for a series. -/
def reported (cfg : Config) (k : MqiCounter) (ls : Labels) (e : QueueType × MQMessage) :
    Option ℚ :=
  match e.1, reading e with
  | .stats, some (.statistics stats) =>
      stats.mqiStats.bind fun mqi =>
        if statisticsLabels cfg stats mqi = ls then some ((mqi.counter k).toInt : ℚ) else none
  | _, _ => none

/-- What the counts of an accounting message add to a gauge. -/
def accountedCount (ops : OperationCounts) (k : MqiCounter) : ℚ :=
  (((accountingCounts ops).filter fun c => c.1 = k).map fun c => (c.2.toInt : ℚ)).sum

/-- The number that a message of the accounting queue accounts for a series. -/
def accounted (cfg : Config) (k : MqiCounter) (ls : Labels) (e : QueueType × MQMessage) :
    Option ℚ :=
  match e.1, reading e with
  | .accounting, some (.accounting acct) =>
      acct.operations.bind fun ops =>
        if accountingLabels cfg acct = ls then some (accountedCount ops k) else none
  | _, _ => none

/-- What is exported for a series; one that is not there stands at zero. -/
def exported (r : Registry) (k : MqiCounter) (ls : Labels) : ℚ := (r (.mqiCounter k) ls).getD 0

/-! ## What a message writes to a series -/

section Writes

variable {cfg : Config} {k : MqiCounter} {ls : Labels}

theorem foldl_set_counter (counters : List MqiCounter) (v : MqiCounter → ℚ) (r : Registry)
    (ls' : Labels) :
    counters.foldl (fun r c => r.set (.mqiCounter c) ls (v c)) r (.mqiCounter k) ls' =
      if k ∈ counters ∧ ls' = ls then some (v k) else r (.mqiCounter k) ls' := by
  induction counters generalizing r with
  | nil => exact (if_neg fun h => absurd h.1 List.not_mem_nil).symm
  | cons c counters ih =>
      rw [List.foldl_cons, ih, Registry.set_apply]
      by_cases hls : ls' = ls
      · by_cases hc : k = c
        · subst hc
          simp [hls]
        · simp [hls, hc]
      · simp [hls]

theorem foldl_set_total (totals : List MqiTotal) (v : MqiTotal → ℚ) (r : Registry) :
    totals.foldl (fun r t => r.set (.mqiTotal t) ls (v t)) r (.mqiCounter k) =
      r (.mqiCounter k) := by
  induction totals generalizing r with
  | nil => rfl
  | cons t totals ih =>
      rw [List.foldl_cons, ih]
      funext ls'
      exact Registry.set_of_ne r (by nofun) ls ls' _

theorem mem_mqiCounters (k : MqiCounter) : k ∈ mqiCounters := by
  cases k <;> simp [mqiCounters]

/-- `update_mqi_gauges` sets every series of its labels. -/
theorem updateMqiGauges_counter (mqi : MQIStatistics) (qmgr : Bytes) (r : Registry) :
    updateMqiGauges cfg mqi qmgr r (.mqiCounter k) ls =
      if ls = mqiLabels cfg qmgr mqi.applicationName mqi.applicationTag mqi.userIdentifier
          mqi.connectionName mqi.channelName then
        some ((mqi.counter k).toInt : ℚ)
      else r (.mqiCounter k) ls := by
  unfold updateMqiGauges
  rw [foldl_set_total, foldl_set_counter]
  simp only [mem_mqiCounters, true_and]
  rfl

theorem recordQueueStats_counter (qmgr plat : Bytes) (qs : QueueStatistics) (r : Registry) :
    recordQueueStats cfg qmgr plat qs r (.mqiCounter k) = r (.mqiCounter k) := by
  have hproc (r : Registry) (proc : ProcInfo) :
      recordProc cfg qmgr qs.queueName r proc (.mqiCounter k) = r (.mqiCounter k) := by
    have hhandles : Family.mqiCounter k ≠ handlesFamily proc.role := by
      cases proc.role <;> exact nofun
    funext ls
    unfold recordProc
    rw [Registry.set_of_ne _ hhandles, Registry.set_of_ne _ (by nofun),
      Registry.set_of_ne _ (by nofun), Registry.set_of_ne _ (by nofun)]
  have hprocs (procs : List ProcInfo) (r : Registry) :
      procs.foldl (recordProc cfg qmgr qs.queueName) r (.mqiCounter k) = r (.mqiCounter k) := by
    induction procs generalizing r with
    | nil => rfl
    | cons proc procs ih => rw [List.foldl_cons, ih, hproc]
  funext ls
  unfold recordQueueStats
  rw [hprocs]
  iterate 6 rw [Registry.set_of_ne _ (by nofun)]

theorem recordChannelStats_counter (qmgr : Bytes) (cs : ChannelStatistics) (r : Registry) :
    recordChannelStats cfg qmgr cs r (.mqiCounter k) = r (.mqiCounter k) := by
  funext ls
  unfold recordChannelStats
  iterate 3 rw [Registry.set_of_ne _ (by nofun)]

theorem foldl_increment (counts : List (MqiCounter × Int32)) (r : Registry) (ls' : Labels) :
    exported (counts.foldl (fun r e => r.increment (.mqiCounter e.1) ls e.2.toInt) r) k ls' =
      exported r k ls' +
        if ls = ls' then ((counts.filter fun c => c.1 = k).map fun c => (c.2.toInt : ℚ)).sum
        else 0 := by
  induction counts generalizing r with
  | nil => simp
  | cons c counts ih =>
      rw [List.foldl_cons, ih]
      have hhead : exported (r.increment (.mqiCounter c.1) ls c.2.toInt) k ls' =
          exported r k ls' + if ls = ls' ∧ c.1 = k then (c.2.toInt : ℚ) else 0 := by
        unfold exported Registry.increment
        by_cases hls : ls = ls'
        · by_cases hc : c.1 = k
          · subst hls hc
            simp
          · simp [hc, Ne.symm hc]
        · simp [hls, Ne.symm hls]
      rw [hhead, List.filter_cons, add_assoc]
      by_cases hls : ls = ls'
      · by_cases hc : c.1 = k
        · simp [hls, hc]
        · simp [hls, hc]
      · simp [hls]

theorem recordQueueOperation_counter (qmgr : Bytes) (r : Registry) (qa : QueueAppOperation) :
    recordQueueOperation cfg qmgr r qa (.mqiCounter k) = r (.mqiCounter k) := by
  funext ls
  unfold recordQueueOperation
  iterate 4 rw [Registry.set_of_ne _ (by nofun)]

/-- The three parts of a statistics message, one after the other. -/
theorem recordStatistics_eq (cfg : Config) (plat : Bytes) (stats : StatisticsData)
    (r : Registry) :
    recordStatistics cfg plat stats r =
      let qmgr := statisticsQmgr cfg stats
      let r := stats.queueStats.elim r fun qs => recordQueueStats cfg qmgr plat qs r
      let r := stats.channelStats.elim r fun cs => recordChannelStats cfg qmgr cs r
      stats.mqiStats.elim r fun mqi => updateMqiGauges cfg mqi qmgr r := by
  unfold recordStatistics
  cases stats.queueStats <;> cases stats.channelStats <;> cases stats.mqiStats <;> rfl

/-- A statistics message sets the series of its labels. -/
theorem exported_recordStatistics (plat : Bytes) (stats : StatisticsData) (r : Registry) :
    exported (recordStatistics cfg plat stats r) k ls =
      (stats.mqiStats.bind fun mqi =>
        if statisticsLabels cfg stats mqi = ls then some ((mqi.counter k).toInt : ℚ)
        else none).getD (exported r k ls) := by
  rw [recordStatistics_eq]
  -- the parts about the queue and the channel leave the series alone
  have hqueue : (stats.queueStats.elim r fun qs =>
      recordQueueStats cfg (statisticsQmgr cfg stats) plat qs r) (.mqiCounter k) =
      r (.mqiCounter k) := by
    cases stats.queueStats with
    | none => rfl
    | some qs => exact recordQueueStats_counter _ plat qs r
  have hchannel (r' : Registry) (hr' : r' (.mqiCounter k) = r (.mqiCounter k)) :
      (stats.channelStats.elim r' fun cs =>
        recordChannelStats cfg (statisticsQmgr cfg stats) cs r') (.mqiCounter k) =
      r (.mqiCounter k) := by
    cases stats.channelStats with
    | none => exact hr'
    | some cs => exact (recordChannelStats_counter _ cs r').trans hr'
  have hrest := hchannel _ hqueue
  dsimp only
  generalize (stats.channelStats.elim _ _ : Registry) = r' at hrest ⊢
  unfold exported
  cases stats.mqiStats with
  | none =>
      rw [Option.elim_none, hrest]
      rfl
  | some mqi =>
      rw [Option.elim_some, updateMqiGauges_counter, hrest, Option.bind_some]
      have hlabels : statisticsLabels cfg stats mqi =
          mqiLabels cfg (statisticsQmgr cfg stats) mqi.applicationName mqi.applicationTag
            mqi.userIdentifier mqi.connectionName mqi.channelName := rfl
      rw [hlabels]
      split
      · next hls =>
          rw [if_pos hls.symm]
          rfl
      · next hls =>
          rw [if_neg (Ne.symm hls)]
          rfl

/-- An accounting message adds to the series of its labels. -/
theorem exported_recordAccounting (acct : AccountingData) (r : Registry) :
    exported (recordAccounting cfg acct r) k ls =
      exported r k ls + (acct.operations.bind fun ops =>
        if accountingLabels cfg acct = ls then some (accountedCount ops k) else none).getD 0 := by
  unfold recordAccounting accountingLabels
  dsimp only
  generalize (if acct.queueManager = [] then cfg.queueManager else acct.queueManager) = qmgr
  have hqueues (qas : List QueueAppOperation) (r : Registry) :
      exported (qas.foldl (recordQueueOperation cfg qmgr) r) k ls = exported r k ls := by
    induction qas generalizing r with
    | nil => rfl
    | cons qa qas ih =>
        rw [List.foldl_cons, ih]
        unfold exported
        rw [recordQueueOperation_counter]
  rw [hqueues]
  cases acct.operations with
  | none => exact (add_zero _).symm
  | some ops =>
      refine (foldl_increment (accountingCounts ops) r ls).trans ?_
      rw [Option.bind_some]
      congr 1
      by_cases hls : mqiLabels cfg qmgr (acct.connectionInfo.getD {}).applicationName
          (acct.connectionInfo.getD {}).applicationTag
          (acct.connectionInfo.getD {}).userIdentifier
          (acct.connectionInfo.getD {}).connectionName
          (acct.connectionInfo.getD {}).channelName = ls
      · rw [if_pos hls]
        exact if_pos hls
      · rw [if_neg hls]
        exact if_neg hls

end Writes

/-! ## Batches -/

/-- The parser accepts a message. -/
def accepts (e : QueueType × MQMessage) : Bool :=
  match parseMessage e.2.data (parseType e.1) with
  | .ok _ => true
  | _ => false

/-- The messages of a batch that are handed on: those up to the first that the parser
throws on. -/
def takenIn : List (QueueType × MQMessage) → List (QueueType × MQMessage)
  | [] => []
  | e :: rest => if accepts e then e :: takenIn rest else [e]

/-- What is written for a message. -/
def written (cfg : Config) (plat : Bytes) (r : Registry) (e : QueueType × MQMessage) :
    Registry :=
  match e.1, reading e with
  | .stats, some (.statistics stats) => recordStatistics cfg plat stats r
  | .accounting, some (.accounting acct) => recordAccounting cfg acct r
  | _, _ => r

section Batches

variable (cfg : Config)

/-- One message: what is handed on and written, and whether the call returns. -/
theorem process_eq (e : QueueType × MQMessage) (c : MetricsCollector) :
    process cfg e c =
      (if accepts e then .ok () else .raised .lengthError,
        { c with
          handed := c.handed ++ [e]
          registry := written cfg c.session.client.platformString c.registry e }) := by
  obtain ⟨queueType, msg⟩ := e
  have hcontained := (parseMessage_decides msg.data (parseType queueType)).1
  cases queueType with
  | stats =>
      unfold process processStatisticsMessage accepts written reading
      unfold parseType at hcontained ⊢
      dsimp only at hcontained ⊢
      rcases hcontained with ⟨result, hresult⟩ | hraised
      · rw [hresult]
        rcases result with _ | (stats | acct)
        · rfl
        · rfl
        · rfl
      · rw [hraised]
        rfl
  | accounting =>
      unfold process processAccountingMessage accepts written reading
      unfold parseType at hcontained ⊢
      dsimp only at hcontained ⊢
      rcases hcontained with ⟨result, hresult⟩ | hraised
      · rw [hresult]
        rcases result with _ | (stats | acct)
        · rfl
        · rfl
        · rfl
      · rw [hraised]
        rfl

/-- The loop over a batch. -/
theorem forEach_process_eq (batch : List (QueueType × MQMessage)) (c : MetricsCollector) :
    (Effect.forEach batch (process cfg) c).2 =
      { c with
        handed := c.handed ++ takenIn batch
        registry := (takenIn batch).foldl (written cfg c.session.client.platformString)
          c.registry } := by
  induction batch generalizing c with
  | nil =>
      unfold takenIn
      rw [List.append_nil]
      rfl
  | cons e batch ih =>
      unfold Effect.forEach takenIn
      cases haccepts : accepts e with
      | true =>
          have hprocess := process_eq cfg e c
          rw [haccepts] at hprocess
          rw [Effect.bind_of_ok hprocess, ih]
          dsimp only
          rw [List.append_assoc]
          rfl
      | false =>
          have hprocess := process_eq cfg e c
          rw [haccepts] at hprocess
          rw [Effect.bind_of_raised hprocess]
          rfl

/-- What is handed on in a cycle, and what is exported for a series behind it. -/
theorem updateMetricsFromMessages_eq_takenIn (statsMsgs acctMsgs : List MQMessage)
    (c : MetricsCollector) (k : MqiCounter) (ls : Labels) :
    (updateMetricsFromMessages cfg statsMsgs acctMsgs c).2.handed =
        c.handed ++ takenIn (batchOf statsMsgs acctMsgs) ∧
      (updateMetricsFromMessages cfg statsMsgs acctMsgs c).2.session = c.session ∧
      exported (updateMetricsFromMessages cfg statsMsgs acctMsgs c).2.registry k ls =
        exported ((takenIn (batchOf statsMsgs acctMsgs)).foldl
          (written cfg c.session.client.platformString) c.registry) k ls := by
  have hloop := forEach_process_eq cfg (batchOf statsMsgs acctMsgs) c
  rw [updateMetricsFromMessages_eq]
  rcases hrun : Effect.forEach (batchOf statsMsgs acctMsgs) (process cfg) c with ⟨outcome, c'⟩
  rw [hrun] at hloop
  subst hloop
  cases outcome with
  | ok a =>
      rw [Effect.bind_of_ok hrun]
      have hinfo (r : Registry) (ls' : Labels) :
          exported (r.set .collectionInfo ls' 1) k ls = exported r k ls := by
        unfold exported
        rw [Registry.set_of_ne _ (by nofun)]
      exact ⟨rfl, rfl, hinfo _ _⟩
  | raised e =>
      rw [Effect.bind_of_raised hrun]
      exact ⟨rfl, rfl, rfl⟩
  | undefined =>
      rw [Effect.bind_of_undefined hrun]
      exact ⟨rfl, rfl, rfl⟩
  | pending =>
      rw [Effect.bind_of_pending hrun]
      exact ⟨rfl, rfl, rfl⟩

/-- Messages of the statistics queue set the series, and the last one stays. -/
theorem exported_stats {handed : List (QueueType × MQMessage)} (h : ∀ e ∈ handed, e.1 = .stats)
    (plat : Bytes) (r : Registry) (k : MqiCounter) (ls : Labels) :
    exported (handed.foldl (written cfg plat) r) k ls =
        ((handed.filterMap (reported cfg k ls)).getLast?).getD (exported r k ls) ∧
      handed.filterMap (accounted cfg k ls) = [] := by
  induction handed generalizing r with
  | nil => exact ⟨rfl, rfl⟩
  | cons e handed ih =>
      obtain ⟨hhead, hrest⟩ := List.forall_mem_cons.mp h
      obtain ⟨hexported, hnone⟩ := ih hrest (written cfg plat r e)
      obtain ⟨queueType, msg⟩ := e
      subst hhead
      have hwritten : exported (written cfg plat r (.stats, msg)) k ls =
          (reported cfg k ls (.stats, msg)).getD (exported r k ls) := by
        unfold written reported
        rcases reading (.stats, msg) with _ | (stats | acct)
        · rfl
        · exact exported_recordStatistics plat stats r
        · rfl
      rw [List.foldl_cons, hexported, hwritten]
      refine ⟨?_, hnone⟩
      cases hreported : reported cfg k ls (.stats, msg) with
      | none =>
          rw [List.filterMap_cons_none hreported]
          rfl
      | some v =>
          rw [List.filterMap_cons_some hreported, List.getLast?_cons]
          rfl

/-- Messages of the accounting queue add to the series. -/
theorem exported_accounting {handed : List (QueueType × MQMessage)}
    (h : ∀ e ∈ handed, e.1 = .accounting) (plat : Bytes) (r : Registry) (k : MqiCounter)
    (ls : Labels) :
    exported (handed.foldl (written cfg plat) r) k ls =
        exported r k ls + (handed.filterMap (accounted cfg k ls)).sum ∧
      handed.filterMap (reported cfg k ls) = [] := by
  induction handed generalizing r with
  | nil => exact ⟨(add_zero _).symm, rfl⟩
  | cons e handed ih =>
      obtain ⟨hhead, hrest⟩ := List.forall_mem_cons.mp h
      obtain ⟨hexported, hnone⟩ := ih hrest (written cfg plat r e)
      obtain ⟨queueType, msg⟩ := e
      subst hhead
      have hwritten : exported (written cfg plat r (.accounting, msg)) k ls =
          exported r k ls + (accounted cfg k ls (.accounting, msg)).getD 0 := by
        unfold written accounted
        rcases reading (.accounting, msg) with _ | (stats | acct)
        · exact (add_zero _).symm
        · exact (add_zero _).symm
        · exact exported_recordAccounting acct r
      rw [List.foldl_cons, hexported, hwritten]
      refine ⟨?_, hnone⟩
      cases haccounted : accounted cfg k ls (.accounting, msg) with
      | none =>
          rw [List.filterMap_cons_none haccounted]
          exact congrArg (· + _) (add_zero _)
      | some v =>
          rw [List.filterMap_cons_some haccounted, List.sum_cons, ← add_assoc]
          rfl

/-- What is handed on of a batch: first messages of the one queue, then messages of
the other. -/
theorem takenIn_batchOf (statsMsgs acctMsgs : List MQMessage) :
    ∃ first second, takenIn (batchOf statsMsgs acctMsgs) = first ++ second ∧
      (∀ e ∈ first, e.1 = .stats) ∧ ∀ e ∈ second, e.1 = .accounting := by
  have hsub : ∀ batch : List (QueueType × MQMessage), takenIn batch ⊆ batch := by
    intro batch
    induction batch with
    | nil => exact List.Subset.refl _
    | cons e batch ih =>
        unfold takenIn
        split
        · exact List.cons_subset_cons e ih
        · exact List.cons_subset_cons e (List.nil_subset batch)
  unfold batchOf
  induction statsMsgs with
  | nil =>
      refine ⟨[], _, rfl, fun _ h => absurd h List.not_mem_nil, fun e he => ?_⟩
      obtain ⟨msg, -, rfl⟩ := List.mem_map.mp (hsub _ he)
      rfl
  | cons msg statsMsgs ih =>
      obtain ⟨first, second, heq, hfirst, hsecond⟩ := ih
      rw [List.map_cons, List.cons_append]
      unfold takenIn
      split
      · refine ⟨(.stats, msg) :: first, second, congrArg (_ :: ·) heq, ?_, hsecond⟩
        exact List.forall_mem_cons.mpr ⟨rfl, hfirst⟩
      · refine ⟨[(.stats, msg)], [], rfl, ?_, fun _ h => absurd h List.not_mem_nil⟩
        exact List.forall_mem_cons.mpr ⟨rfl, fun _ h => absurd h List.not_mem_nil⟩

end Batches

/-! ## Runs -/

/-- The messages of a collection cycle. -/
structure Batch where
  statsMsgs : List MQMessage
  acctMsgs : List MQMessage

/-- What is handed on of a batch. -/
def Batch.handed (b : Batch) : List (QueueType × MQMessage) :=
  takenIn (batchOf b.statsMsgs b.acctMsgs)

/-- The collector after some cycles.  An exception that leaves a cycle is caught in
`collect_cycle`. -/
def afterCycles (cfg : Config) (s : Session) (batches : List Batch) : MetricsCollector :=
  batches.foldl (fun c b => (updateMetricsFromMessages cfg b.statsMsgs b.acctMsgs c).2)
    { session := s }

/-- What has been accounted for a series by the messages that were handed on. -/
def accountedIn (cfg : Config) (k : MqiCounter) (ls : Labels)
    (handed : List (QueueType × MQMessage)) : ℚ :=
  (handed.filterMap (accounted cfg k ls)).sum

/-- What is asked of a run: after every cycle every series is at least what has been
accounted for it. -/
def AccountsKept (cfg : Config) (s : Session) (batches : List Batch) : Prop :=
  ∀ done, done <+: batches → ∀ k ∈ accountedCounters, ∀ ls : Labels,
    accountedIn cfg k ls (afterCycles cfg s done).handed ≤
      exported (afterCycles cfg s done).registry k ls

/-- In every cycle the last number reported for a series is at least what the messages
of the earlier cycles have accounted for it. -/
def ReportsCover (cfg : Config) (batches : List Batch) : Prop :=
  ∀ done b, done ++ [b] <+: batches → ∀ k ∈ accountedCounters, ∀ ls : Labels, ∀ v : ℚ,
    (b.handed.filterMap (reported cfg k ls)).getLast? = some v →
      accountedIn cfg k ls (done.flatMap Batch.handed) ≤ v

/-- What is written to a series in a cycle. -/
def Batch.round (cfg : Config) (k : MqiCounter) (ls : Labels) (b : Batch) : Round ℚ :=
  { sets := b.handed.filterMap (reported cfg k ls)
    adds := b.handed.filterMap (accounted cfg k ls) }

section Runs

variable {cfg : Config} {k : MqiCounter} {ls : Labels}

theorem exported_handed (b : Batch) (plat : Bytes) (r : Registry) :
    exported (b.handed.foldl (written cfg plat) r) k ls =
      (b.round cfg k ls).write (exported r k ls) := by
  obtain ⟨first, second, heq, hfirst, hsecond⟩ := takenIn_batchOf b.statsMsgs b.acctMsgs
  obtain ⟨hset, hnoadd⟩ := exported_stats cfg hfirst plat r k ls
  obtain ⟨hadd, hnoset⟩ :=
    exported_accounting cfg hsecond plat (first.foldl (written cfg plat) r) k ls
  unfold Round.write Batch.round Batch.handed
  dsimp only
  rw [heq, List.foldl_append, List.filterMap_append, List.filterMap_append, hadd, hset, hnoadd,
    hnoset, List.append_nil, List.nil_append]

/-- A run writes to a series round by round. -/
theorem afterCycles_eq (cfg : Config) (s : Session) (batches : List Batch) (k : MqiCounter)
    (ls : Labels) :
    (afterCycles cfg s batches).handed = batches.flatMap Batch.handed ∧
      exported (afterCycles cfg s batches).registry k ls =
        gaugeAfter (batches.map (Batch.round cfg k ls)) := by
  induction batches using List.reverseRecOn with
  | nil => exact ⟨rfl, rfl⟩
  | append_singleton batches b ih =>
      obtain ⟨hhanded, hexported⟩ := ih
      obtain ⟨hhanded', -, hexported'⟩ := updateMetricsFromMessages_eq_takenIn cfg
        b.statsMsgs b.acctMsgs (afterCycles cfg s batches) k ls
      unfold afterCycles
      rw [List.foldl_append, List.foldl_cons, List.foldl_nil]
      refine ⟨?_, ?_⟩
      · refine hhanded'.trans ?_
        rw [hhanded, List.flatMap_append, List.flatMap_singleton]
        rfl
      · refine hexported'.trans ((exported_handed b _ _).trans ?_)
        rw [hexported, List.map_append, List.map_singleton, gaugeAfter_concat]

theorem accountedIn_flatMap (batches : List Batch) :
    accountedIn cfg k ls (batches.flatMap Batch.handed) =
      addedIn (batches.map (Batch.round cfg k ls)) := by
  unfold accountedIn addedIn
  induction batches with
  | nil => rfl
  | cons b batches ih =>
      rw [List.flatMap_cons, List.filterMap_append, List.sum_append, ih]
      rfl

end Runs

/-- The accounts are kept in a run if and only if what the statistics messages report
covers them. -/
theorem accountsKept_iff (cfg : Config) (s : Session) (batches : List Batch) :
    AccountsKept cfg s batches ↔ ReportsCover cfg batches := by
  have hseries (k : MqiCounter) (ls : Labels) := covers_iff (Batch.round cfg k ls) batches
  constructor
  · intro h done b hdone k hk ls v hv
    rw [accountedIn_flatMap]
    refine (hseries k ls).mp (fun done hdone => ?_) done b hdone v hv
    obtain ⟨hhanded, hexported⟩ := afterCycles_eq cfg s done k ls
    have hkept := h done hdone k hk ls
    rw [hhanded, hexported, accountedIn_flatMap] at hkept
    exact hkept
  · intro h done hdone k hk ls
    obtain ⟨hhanded, hexported⟩ := afterCycles_eq cfg s done k ls
    rw [hhanded, hexported, accountedIn_flatMap]
    refine (hseries k ls).mpr (fun done b hdone v hv => ?_) done hdone
    rw [← accountedIn_flatMap]
    exact h done b hdone k hk ls v hv

/-- The counts in the messages of a run are not negative. -/
def NonNegative (cfg : Config) (batches : List Batch) : Prop :=
  ∀ b ∈ batches, ∀ e ∈ b.handed, ∀ k ∈ accountedCounters, ∀ ls : Labels, ∀ v : ℚ,
    reported cfg k ls e = some v ∨ accounted cfg k ls e = some v → 0 ≤ v

/-- The header of a message of one parameter. -/
def shortHeader (command : Int32) : PCFHeader :=
  { type := 22, strucLength := 36, version := 3, command, msgSeqNumber := 1, control := 1
    compCode := 0, reason := 0, parameterCount := 1 }

/-- A message that has the number of `MQOPEN` calls and nothing else. -/
def opensMessage (command n : Int32) : MQMessage :=
  { data := (shortHeader command).encode ++
      [PcfTree.scalar (.integer mqiamoOpens n)].flatMap PcfTree.encode
    type := QueueType.stats.text }

theorem reading_opensMessage (queueType : QueueType) (command n : Int32) :
    reading (queueType, opensMessage command n) =
      some (interpret (shortHeader command) [(Scalar.integer mqiamoOpens n).param]
        (parseType queueType)) := by
  unfold reading opensMessage
  rw [parseMessage_eq fun t ht => ?_]
  · rfl
  · rw [List.mem_singleton.mp ht]
    exact Nat.lt_of_le_of_lt (Nat.le_refl 16) (by decide)

theorem takenIn_singleton (e : QueueType × MQMessage) : takenIn [e] = [e] := ite_self _

/-- The labels of a message that names nothing. -/
def plainLabels (cfg : Config) : Labels := mqiLabels cfg cfg.queueManager [] [] [] [] []

theorem reported_opensMessage (cfg : Config) (k : MqiCounter) (ls : Labels) (n : Int32) :
    reported cfg k ls (.stats, opensMessage cmdStatisticsMqi n) =
      if plainLabels cfg = ls then some ((if k = .opens then n else 0 : Int32).toInt : ℚ)
      else none := by
  unfold reported
  rw [reading_opensMessage]
  have hcounter : (parseMqiStats [(Scalar.integer mqiamoOpens n).param]).counter k =
      if k = .opens then n else 0 := Function.update_apply _ _ _ _
  rw [← hcounter]
  rfl

theorem accounted_opensMessage (cfg : Config) (k : MqiCounter) (ls : Labels) (n : Int32) :
    accounted cfg k ls (.accounting, opensMessage cmdAccountingMqi n) =
      if plainLabels cfg = ls then some (if k = .opens then (n.toInt : ℚ) else 0) else none := by
  unfold accounted
  rw [reading_opensMessage]
  have hcount : accountedCount (parseOperationCounts [(Scalar.integer mqiamoOpens n).param]) k =
      if k = .opens then (n.toInt : ℚ) else 0 := by
    cases k <;> simp [accountedCount, accountingCounts, parseOperationCounts,
      OperationCounts.withParam, Scalar.param, mqiamoOpens, mqiamoGets, mqiamoPuts]
  rw [← hcount]
  rfl

/-- Five `MQOPEN` calls are accounted, and in the next cycle three are reported. -/
def overwritten : List Batch :=
  [{ statsMsgs := [], acctMsgs := [opensMessage cmdAccountingMqi 5] },
   { statsMsgs := [opensMessage cmdStatisticsMqi 3], acctMsgs := [] }]

theorem handed_accounted : Batch.handed ⟨[], [opensMessage cmdAccountingMqi 5]⟩ =
    [(.accounting, opensMessage cmdAccountingMqi 5)] := takenIn_singleton _

theorem handed_reported : Batch.handed ⟨[opensMessage cmdStatisticsMqi 3], []⟩ =
    [(.stats, opensMessage cmdStatisticsMqi 3)] := takenIn_singleton _

theorem nonNegative_overwritten (cfg : Config) : NonNegative cfg overwritten := by
  intro b hb e he k _ ls v hv
  rcases List.mem_cons.mp hb with rfl | hb
  · rw [handed_accounted, List.mem_singleton] at he
    subst he
    rcases hv with hv | hv
    · cases hv
    · rw [accounted_opensMessage] at hv
      split at hv
      · obtain rfl := Option.some.inj hv
        split
        · decide
        · exact le_refl _
      · cases hv
  · rw [List.mem_singleton.mp hb, handed_reported, List.mem_singleton] at he
    subst he
    rcases hv with hv | hv
    · rw [reported_opensMessage] at hv
      split at hv
      · obtain rfl := Option.some.inj hv
        split
        · decide
        · exact le_refl _
      · cases hv
    · cases hv

theorem rounds_overwritten (cfg : Config) :
    overwritten.map (Batch.round cfg .opens (plainLabels cfg)) = [⟨[], [5]⟩, ⟨[3], []⟩] := by
  have haccounted : accounted cfg .opens (plainLabels cfg)
      (.accounting, opensMessage cmdAccountingMqi 5) = some 5 := by
    rw [accounted_opensMessage, if_pos rfl]
    rfl
  have hreported : reported cfg .opens (plainLabels cfg)
      (.stats, opensMessage cmdStatisticsMqi 3) = some 3 := by
    rw [reported_opensMessage, if_pos rfl]
    rfl
  unfold overwritten Batch.round
  rw [List.map_cons, List.map_singleton, handed_accounted, handed_reported,
    List.filterMap_cons_some haccounted, List.filterMap_cons_some hreported]
  rfl

/-- In the run `overwritten` the five calls are lost. -/
theorem not_accountsKept_overwritten :
    ¬ ∀ (cfg : Config) (s : Session) (batches : List Batch), NonNegative cfg batches →
      AccountsKept cfg s batches := by
  intro h
  let cfg : Config := { queueManager := ascii "QM1" }
  have hkept := h cfg {} overwritten (nonNegative_overwritten cfg) overwritten List.prefix_rfl
    .opens List.mem_cons_self (plainLabels cfg)
  obtain ⟨hhanded, hexported⟩ := afterCycles_eq cfg {} overwritten .opens (plainLabels cfg)
  -- five have been accounted, and three are exported
  rw [hhanded, hexported, accountedIn_flatMap, rounds_overwritten] at hkept
  norm_num [addedIn, gaugeAfter, Round.write] at hkept

/-! ## The same application on both paths -/

/-- The application of a list of parameters has the same labels in a statistics message
and in an accounting message. -/
structure SameLabels (ps : List PCFParameter) : Prop where
  texts : SameTexts (parseMqiStats ps) (parseConnectionInfo ps)
  labels (cfg : Config) (hdr : PCFHeader) :
    statisticsLabels cfg (parseStatistics hdr ps) (parseMqiStats ps) =
      accountingLabels cfg (parseAccounting ps)

/-- The queue manager of a message does not depend on its kind. -/
theorem queueManager_parseStatistics (hdr : PCFHeader) (ps : List PCFParameter) :
    (parseStatistics hdr ps).queueManager = findQueueManager ps := by
  unfold parseStatistics
  split_ifs <;> rfl

theorem SameLabels.of_texts {ps : List PCFParameter}
    (h : SameTexts (parseMqiStats ps) (parseConnectionInfo ps)) : SameLabels ps where
  texts := h
  labels cfg hdr := by
    rw [statisticsLabels, statisticsQmgr, queueManager_parseStatistics, h.applicationName,
      h.applicationTag, h.userIdentifier, h.connectionName, h.channelName]
    rfl

/-- The labels are the same if and only if the last connection name, should it stand under
`MQCA_CONNECTION_NAME`, repeats the one before. -/
theorem sameLabels_iff {ps : List PCFParameter} (hflat : Flat ps) :
    SameLabels ps ↔ ConnectionRepeats ps := by
  rw [← sameTexts_parse_iff hflat]
  exact ⟨SameLabels.texts, SameLabels.of_texts⟩

/-- A connection name under the id that `parse_mqi_stats` does not look for. -/
def namedConnection : PCFParameter := ⟨mqcaConnectionName, mqcftString, .string (ascii "host")⟩

theorem flat_namedConnection : Flat [namedConnection] := by
  intro p hp ms hms
  obtain rfl := List.mem_singleton.mp hp
  cases hms

theorem sameLabels_iff_namedConnection :
    SameLabels [namedConnection] ↔ ConnectionRepeats [namedConnection] :=
  sameLabels_iff flat_namedConnection

/-- The connection has its name as a label in accounting messages only. -/
theorem not_sameLabels : ¬ ∀ ps, (∀ p ∈ ps, ∃ s, p.value = .string s) → SameLabels ps := by
  intro h
  have hstrings : ∀ p ∈ [namedConnection], ∃ s, p.value = .string s := by
    intro p hp
    obtain rfl := List.mem_singleton.mp hp
    exact ⟨_, rfl⟩
  have hconn := (h [namedConnection] hstrings).texts.connectionName
  exact absurd hconn (by decide)

end IbmmqExporter.Metrics
