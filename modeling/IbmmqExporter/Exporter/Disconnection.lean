/-
  Exporter/Disconnection.lean --- what the metrics say of a lost connection.

  `collect_qmgr_status` has a branch that reports the status 0, but `collect_metrics`
  calls it only while the client is connected.  `set_baseline_metrics` sets the time of
  the last collection at the end of every call.

  WHAT THE FILE PROVES.  A call that returns with the client disconnected leaves every
  series of `qmgr_status` as it is, and sets `last_collection_timestamp`.  So a run
  shows its disconnections exactly if the series were zero before, and the clock has
  not gone on.
-/
import IbmmqExporter.Exporter.Cycle
import IbmmqExporter.Metrics.Accounting

set_option autoImplicit false

namespace IbmmqExporter.Exporter

open Foundation Effect Mq Metrics

/-! ## Families that no message writes to -/

/-- The families of the statistics and accounting messages. -/
def ofMessages : Family → Bool
  | .queueDepth | .queueHighDepth | .queueEnqueue | .queueDequeue | .queueReaders
  | .queueWriters | .queueProcess | .queueHandleInfo | .queueProcessDetail
  | .queueInputHandles | .queueOutputHandles | .channelMessages | .channelBytes
  | .channelBatches | .queueAppPuts | .queueAppGets | .queueAppMsgsReceived
  | .queueAppMsgsSent | .mqiCounter _ | .mqiTotal _ | .collectionInfo => true
  | _ => false

section Messages

variable {f g : Family}

theorem set_other (hg : ofMessages g = false) (hf : ofMessages f = true) (r : Registry)
    (ls : Labels) (v : ℚ) : r.set f ls v g = r g := by
  funext ls'
  refine Registry.set_of_ne r (fun h => ?_) ls ls' v
  rw [h, hf] at hg
  cases hg

theorem increment_other (hg : ofMessages g = false) (hf : ofMessages f = true) (r : Registry)
    (ls : Labels) (v : ℚ) : r.increment f ls v g = r g := by
  funext ls'
  refine if_neg fun h => ?_
  rw [h.1, hf] at hg
  cases hg

theorem foldl_other {α : Type} {write : Registry → α → Registry}
    (h : ∀ r a, write r a g = r g) (l : List α) (r : Registry) : l.foldl write r g = r g := by
  induction l generalizing r with
  | nil => rfl
  | cons a l ih => rw [List.foldl_cons, ih, h]

theorem ofMessages_handlesFamily (role : Pcf.Role) : ofMessages (handlesFamily role) = true := by
  cases role with
  | input => rfl
  | output => rfl
  | unknown => rfl

theorem recordQueueStats_other (hg : ofMessages g = false) (cfg : Metrics.Config)
    (qmgr plat : Bytes) (qs : Pcf.QueueStatistics) (r : Registry) :
    recordQueueStats cfg qmgr plat qs r g = r g := by
  have hproc (r : Registry) (proc : Pcf.ProcInfo) :
      recordProc cfg qmgr qs.queueName r proc g = r g := by
    unfold recordProc
    rw [set_other hg (ofMessages_handlesFamily _), set_other hg rfl, set_other hg rfl,
      set_other hg rfl]
  unfold recordQueueStats
  rw [foldl_other hproc, set_other hg rfl, set_other hg rfl, set_other hg rfl, set_other hg rfl,
    set_other hg rfl, set_other hg rfl]

theorem recordChannelStats_other (hg : ofMessages g = false) (cfg : Metrics.Config)
    (qmgr : Bytes) (cs : Pcf.ChannelStatistics) (r : Registry) :
    recordChannelStats cfg qmgr cs r g = r g := by
  unfold recordChannelStats
  rw [set_other hg rfl, set_other hg rfl, set_other hg rfl]

theorem updateMqiGauges_other (hg : ofMessages g = false) (cfg : Metrics.Config)
    (mqi : Pcf.MQIStatistics) (qmgr : Bytes) (r : Registry) :
    updateMqiGauges cfg mqi qmgr r g = r g := by
  unfold updateMqiGauges
  rw [foldl_other fun r t => set_other hg rfl r _ _, foldl_other fun r c => set_other hg rfl r _ _]

theorem elim_other {α : Type} {write : Registry → α → Registry} (h : ∀ r a, write r a g = r g)
    (x : Option α) (r : Registry) : x.elim r (fun a => write r a) g = r g := by
  cases x with
  | none => rfl
  | some a => exact h r a

theorem recordStatistics_other (hg : ofMessages g = false) (cfg : Metrics.Config)
    (plat : Bytes) (stats : Pcf.StatisticsData) (r : Registry) :
    recordStatistics cfg plat stats r g = r g := by
  rw [recordStatistics_eq]
  dsimp only
  rw [elim_other fun r mqi => updateMqiGauges_other hg cfg mqi _ r,
    elim_other fun r cs => recordChannelStats_other hg cfg _ cs r,
    elim_other fun r qs => recordQueueStats_other hg cfg _ plat qs r]

theorem recordAccounting_other (hg : ofMessages g = false) (cfg : Metrics.Config)
    (acct : Pcf.AccountingData) (r : Registry) : recordAccounting cfg acct r g = r g := by
  have hqueues (r : Registry) (qmgr : Bytes) (qa : Pcf.QueueAppOperation) :
      recordQueueOperation cfg qmgr r qa g = r g := by
    unfold recordQueueOperation
    rw [set_other hg rfl, set_other hg rfl, set_other hg rfl, set_other hg rfl]
  unfold recordAccounting
  rw [foldl_other fun r qa => hqueues r _ qa]
  cases acct.operations with
  | none => rfl
  | some ops => exact foldl_other (fun r e => increment_other hg rfl r _ _) _ r

/-- The message part of a cycle leaves the other families alone. -/
theorem preserves_collectAllMessages (hg : ofMessages g = false) (cfg : Metrics.Config) :
    Preserves (fun m => m.registry g) (collectAllMessages cfg) := by
  have hcollect (queueType : QueueType) :
      Preserves (fun m => m.registry g) (collectMessages queueType) :=
    Preserves.tryCatch (fun _ => rfl) fun _ => preserves_pure []
  have hrecord {write : Registry → Registry} (h : ∀ r, write r g = r g) :
      Preserves (fun m => m.registry g) (record write) := fun m => h m.registry
  refine (hcollect .stats).bind fun statsMsgs => (hcollect .accounting).bind fun acctMsgs => ?_
  refine (preserves_forEach fun msg _ => ?_).bind fun _ =>
    (preserves_forEach fun msg _ => ?_).bind fun _ => (preserves_gets _).bind fun plat =>
    hrecord fun r => set_other hg rfl r _ _
  · refine Preserves.bind (fun _ => rfl) fun _ => (preserves_lift _).bind fun result => ?_
    cases result with
    | none => exact preserves_pure ()
    | some data =>
        cases data with
        | statistics stats =>
            exact (preserves_gets _).bind fun plat =>
              hrecord fun r => recordStatistics_other hg cfg plat stats r
        | accounting acct => exact preserves_pure ()
  · refine Preserves.bind (fun _ => rfl) fun _ => (preserves_lift _).bind fun result => ?_
    cases result with
    | none => exact preserves_pure ()
    | some data =>
        cases data with
        | statistics stats => exact preserves_pure ()
        | accounting acct => exact hrecord fun r => recordAccounting_other hg cfg acct r

end Messages

/-! ## A cycle without a connection -/

section Down

variable (cfg : Config) (clock : Clock)

/-- Without a connection only the queues are looked for, in vain. -/
theorem wp_collectGauges_down {m : MetricsCollector} (hdown : m.session.client.connected = false) :
    wp (collectGauges cfg clock)
      (fun _ m' => m'.registry = m.registry ∧ m'.session.client = m.session.client)
      (fun _ _ => True) m := by
  have hsame (pattern : Bytes) :
      Within (Same fun m : MetricsCollector => (m.registry, m.session.client))
        (Metrics.session (discoverQueues pattern)) := by
    refine Preserves.within fun m => ?_
    exact congrArg (Prod.mk m.registry) (Collector.preserves_discoverQueues pattern m.session)
  have hselect := within_selectQueues hsame cfg.queues.selection m
  unfold collectGauges
  rw [wp_bind]
  refine wp_mono hselect (fun queues m₁ h₁ => ?_) fun _ _ _ => trivial
  obtain ⟨hregistry, hclient⟩ := Prod.mk.inj h₁
  have hdown₁ : m₁.session.client.connected = false := by rw [hclient, hdown]
  have hidle {c : Collect Unit} :
      attempt (clientConnected >>= fun connected => if connected = false then return else c) m₁ =
        (.ok (), m₁) := by
    unfold attempt
    refine tryCatch_of_ok ?_
    show (if m₁.session.client.connected = false then (return : Collect Unit) else c) m₁ = _
    rw [if_pos hdown₁]
    rfl
  refine wp_bind_of_ok hidle (wp_bind_of_ok hidle ?_)
  show wp (when (cfg.useStatus = true ∧ m₁.session.client.connected = true) _) _ _ m₁
  rw [hdown₁, when_neg fun h => Bool.false_ne_true h.2]
  exact ⟨hregistry, hclient⟩

/-- What the end of a cycle writes. -/
def baseline (cfg : Config) (clock : Clock) (plat : Bytes) (r : Registry) : Registry :=
  (r.set .lastCollectionTime (timestampLabels cfg.metrics) clock.now).set .collectionInfo
    (collectionLabels cfg.metrics plat) 1

/-- Without a connection there is nothing behind the messages but the end. -/
theorem wp_behindMessages_down {h : Holdings}
    (hdown : h.objects.session.client.connected = false) :
    wp (behindMessages cfg clock)
      (fun _ h' => ∃ plat, h'.objects.metrics.registry =
        baseline cfg clock plat h.objects.metrics.registry)
      (fun _ _ => True) h := by
  unfold behindMessages collect Collector.metrics
  rw [wp_bind, wp_zoom, wp_zoom]
  refine wp_mono (wp_collectGauges_down cfg clock hdown) ?_ fun _ _ _ => trivial
  rintro _ m ⟨hregistry, hclient⟩
  have hdown' : m.session.client.connected = false := by
    rw [hclient]
    exact hdown
  refine wp_bind_of_ok rfl ?_
  show wp (when (m.session.client.connected = true) _ >>= _) _ _ _
  rw [hdown', when_neg Bool.false_ne_true, pure_bind]
  refine ⟨m.session.client.platformString, ?_⟩
  rw [← hregistry]
  rfl

variable {cfg clock}

/-- A call that returns disconnected: it has written the messages and the baseline. -/
theorem collectMetrics_down {h h' : Holdings} (hrun : collectMetrics cfg clock h = (.ok (), h'))
    (hdown : h'.objects.session.client.connected = false) :
    ∃ plat r, h'.objects.metrics.registry = baseline cfg clock plat r ∧
      ∀ g, ofMessages g = false → r g = h.objects.metrics.registry g := by
  obtain ⟨requests, habstract⟩ := collectMetrics_refines hrun (.inl rfl)
  have hend := Collector.collectMetrics_isConnected cfg.base requests h.objects
  have hmessages := (Collector.latches_collectAllMessages cfg.metrics).flag_eq h.objects.metrics
  have hkept (g : Family) (hg : ofMessages g = false) :=
    preserves_collectAllMessages hg cfg.metrics h.objects.metrics
  rw [habstract] at hend
  change (collect (collectAllMessages cfg.metrics) >>= fun _ => behindMessages cfg clock) h = _
    at hrun
  rcases hfirst : collectAllMessages cfg.metrics h.objects.metrics with ⟨outcome, m⟩
  rw [hfirst] at hmessages hkept
  have hcollect : collect (collectAllMessages cfg.metrics) h =
      (outcome, { h with objects := { h.objects with metrics := m } }) := by
    unfold collect Collector.metrics
    rw [zoom_apply, zoom_apply, hfirst]
  -- only the messages can have ended the connection
  have hdown₁ : m.session.client.connected = false := hmessages.trans (hend.symm.trans hdown)
  cases outcome with
  | ok a =>
      rw [bind_of_ok hcollect] at hrun
      have hbehind := wp_behindMessages_down cfg clock
        (h := { h with objects := { h.objects with metrics := m } }) hdown₁
      have hresult := of_wp_ok hbehind hrun
      obtain ⟨plat, hregistry⟩ := hresult
      exact ⟨plat, m.registry, hregistry, hkept⟩
  | raised e =>
      rw [bind_of_raised hcollect] at hrun
      cases hrun
  | undefined =>
      rw [bind_of_undefined hcollect] at hrun
      cases hrun
  | pending =>
      rw [bind_of_pending hcollect] at hrun
      cases hrun

end Down

/-! ## What is asked -/

/-- A call of `collect_metrics` that returns with the client disconnected. -/
structure Step.ReturnsDown (cfg : Config) (t : Step) (clock : Clock) : Prop where
  clock_eq : t.clock = some clock
  returns : (collectMetrics cfg clock t.before.holdings).1 = .ok ()
  down : t.after.machine.isConnected = false

/-- Every series of `qmgr_status` reads 0. -/
def ReadsDown (r : Registry) : Prop := ∀ ls v, r .qmgrStatus ls = some v → v = 0

/-- No series of `last_collection_timestamp` has gone on. -/
def Unadvanced (r r' : Registry) : Prop :=
  ∀ ls v, r' .lastCollectionTime ls = some v → ∃ u, r .lastCollectionTime ls = some u ∧ v ≤ u

/-- What is asked of a run: a call that returns with the client disconnected leaves the
status at 0, and the time of the last collection where it was. -/
structure DisconnectionsShown (cfg : Config) (trace : List Step) : Prop where
  status : ∀ t ∈ trace, ∀ clock, t.ReturnsDown cfg clock →
    ReadsDown t.after.holdings.objects.metrics.registry
  timestamp : ∀ t ∈ trace, ∀ clock, t.ReturnsDown cfg clock →
    Unadvanced t.before.holdings.objects.metrics.registry t.after.holdings.objects.metrics.registry

/-- In front of such a call the status is 0 already, and the time of the last
collection is that of the clock or a later one. -/
def DownAlready (cfg : Config) (trace : List Step) : Prop :=
  ∀ t ∈ trace, ∀ clock, t.ReturnsDown cfg clock →
    ReadsDown t.before.holdings.objects.metrics.registry ∧
      ∃ u, t.before.holdings.objects.metrics.registry .lastCollectionTime
        (timestampLabels cfg.metrics) = some u ∧ clock.now ≤ u

section Runs

variable {cfg : Config} {clock : Clock} {t : Step}

/-- What such a call leaves of the two families. -/
theorem registry_of_returnsDown (hstep : t.before.step cfg t.action = some t.after)
    (h : t.ReturnsDown cfg clock) :
    t.after.holdings.objects.metrics.registry .qmgrStatus =
        t.before.holdings.objects.metrics.registry .qmgrStatus ∧
      ∀ ls, t.after.holdings.objects.metrics.registry .lastCollectionTime ls =
        if ls = timestampLabels cfg.metrics then some (clock.now : ℚ)
        else t.before.holdings.objects.metrics.registry .lastCollectionTime ls := by
  have hafter : collectMetrics cfg clock t.before.holdings = (.ok (), t.after.holdings) :=
    Prod.ext h.returns (Process.step_cycle h.clock_eq hstep).symm
  obtain ⟨plat, r, hregistry, hkept⟩ := collectMetrics_down hafter h.down
  rw [hregistry, ← hkept .qmgrStatus rfl, ← hkept .lastCollectionTime rfl]
  unfold baseline
  constructor
  · funext ls
    rw [Registry.set_of_ne _ (by nofun), Registry.set_of_ne _ (by nofun)]
  · intro ls
    rw [Registry.set_of_ne _ (by nofun), Registry.set_apply]
    simp only [true_and]

/-- A run shows its disconnections if and only if they were visible before. -/
theorem disconnectionsShown_iff {supply : List Reply} {actions : List Action}
    {trace : List Step}
    (hrun : history (Process.step cfg) (Process.initial cfg supply) actions = some trace) :
    DisconnectionsShown cfg trace ↔ DownAlready cfg trace := by
  have hstep (t : Step) (ht : t ∈ trace) : t.before.step cfg t.action = some t.after :=
    step_of_mem hrun ht
  constructor
  · intro h t ht clock hdown
    obtain ⟨hstatus, htime⟩ := registry_of_returnsDown (hstep t ht) hdown
    refine ⟨fun ls v hv => ?_, ?_⟩
    · rw [← hstatus] at hv
      exact h.status t ht clock hdown ls v hv
    · have hnow := htime (timestampLabels cfg.metrics)
      rw [if_pos rfl] at hnow
      exact h.timestamp t ht clock hdown _ _ hnow
  · intro h
    refine ⟨fun t ht clock hdown => ?_, fun t ht clock hdown ls v hv => ?_⟩
    · unfold ReadsDown
      rw [(registry_of_returnsDown (hstep t ht) hdown).1]
      exact (h t ht clock hdown).1
    · rw [(registry_of_returnsDown (hstep t ht) hdown).2 ls] at hv
      split at hv
      · next hls =>
          obtain rfl := Option.some.inj hv
          rw [hls]
          exact (h t ht clock hdown).2
      · exact ⟨v, hv, le_rfl⟩

end Runs

/-! ## A queue manager that goes away -/

/-- A configuration with nothing but the messages and the statuses. -/
def statusOnly : Config :=
  { queueManager := ascii "QM1", continuous := true, interval := 0, usePublications := false
    monitorAllQueues := false }

/-- The response that gives the queue manager's status. -/
def statusResponse (status : Int32) : Bytes :=
  Pcf.appendIntegerParam
    (Pcf.PCFHeader.encode
      { type := 2, strucLength := 36, version := 1, command := 161, msgSeqNumber := 1, control := 1
        compCode := 0, reason := 0, parameterCount := 1 })
    1149 status

/-- The answers of a queue manager that is running in one cycle and gone in the
next. -/
def runningThenGone : List Reply :=
  [{ cc := .ok }, { cc := .failed }, { cc := .ok }, { cc := .ok },
    { cc := .failed, rc := mqrcNoMsgAvailable }, { cc := .failed, rc := mqrcNoMsgAvailable },
    { cc := .ok, objectName := ascii "EXPORTER.1" }, { cc := .ok }, { cc := .ok }, { cc := .ok },
    { cc := .ok, message := statusResponse 2 }, { cc := .ok }, { cc := .failed }, { cc := .failed },
    { cc := .failed, rc := mqrcConnectionBroken }, { cc := .failed, rc := mqrcConnectionBroken }]

/-- The run with both cycles, a minute apart. -/
def goneRun : Option (List Step) :=
  history (Process.step statusOnly) (Process.initial statusOnly runningThenGone)
    (List.replicate 9 (.collector { now := 100 } false false) ++
      List.replicate 5 (.collector { now := 160 } false false))

/-- In a step the status is 2 behind a call that returns with the client
disconnected. -/
def showsRunning (t : Step) : Bool :=
  t.clock.any fun clock =>
    decide ((collectMetrics statusOnly clock t.before.holdings).1.Returns) &&
      !t.after.machine.isConnected &&
      decide (t.after.holdings.objects.metrics.registry .qmgrStatus
        (qmgrLabels statusOnly.metrics (ascii "unix") []) = some 2)

theorem goneRun_showsRunning : (goneRun.any fun trace => trace.any showsRunning) = true := by
  decide +kernel

theorem disconnectionsShown_iff_goneRun :
    ∃ trace, goneRun = some trace ∧
      (DisconnectionsShown statusOnly trace ↔ DownAlready statusOnly trace) := by
  obtain ⟨trace, htrace, -⟩ := (Option.any_eq_true _ _).mp goneRun_showsRunning
  exact ⟨trace, htrace, disconnectionsShown_iff htrace⟩

/-- In `goneRun` the status stays 2. -/
theorem not_disconnectionsShown_goneRun :
    ¬ ∀ (cfg : Config) (supply : List Reply) (actions : List Action) (trace : List Step),
      history (Process.step cfg) (Process.initial cfg supply) actions = some trace →
        DisconnectionsShown cfg trace := by
  intro h
  obtain ⟨trace, htrace, hany⟩ := (Option.any_eq_true _ _).mp goneRun_showsRunning
  obtain ⟨t, ht, hshows⟩ := List.any_eq_true.mp hany
  obtain ⟨clock, hclock, hshows⟩ := (Option.any_eq_true _ _).mp hshows
  rw [Bool.and_eq_true, Bool.and_eq_true, decide_eq_true_eq, decide_eq_true_eq,
    Bool.not_eq_true'] at hshows
  obtain ⟨⟨⟨_, hreturns⟩, hdown⟩, hstatus⟩ := hshows
  have hzero := (h statusOnly runningThenGone _ trace htrace).status t ht clock
    ⟨hclock, hreturns, hdown⟩ _ _ hstatus
  cases hzero

end IbmmqExporter.Exporter
