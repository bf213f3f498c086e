/-
  Collector/Reconnect.lean --- what becomes of a run when the connection breaks.

  `run_continuous` goes on as long as `running_` is set.  When `get_message` finds the
  connection broken the exception ends in `collect_messages`, and the flag stays up;
  so the next cycle begins on the same client, and the branch of `start` that makes a
  new one is not reached.

  WHAT THE FILE PROVES.  In which runs every cycle begins on a client that is
  connected: those in which no cycle follows the loss of the connection.
-/
import IbmmqExporter.Collector.Connection
import IbmmqExporter.Collector.Steps
import IbmmqExporter.Foundation.History

set_option autoImplicit false

namespace IbmmqExporter.Collector

open Foundation Effect Mq

/-! ## The connection behind the methods -/

/-- The connection, seen from the objects. -/
def Objects.isConnected (o : Objects) : Bool := Collector.isConnected o.session

section Methods

variable {α : Type}

theorem preserves_ofClient {c : Method α} (hc : Preserves isConnected c) :
    Preserves Objects.isConnected (client c) := hc.zoom fun _ _ => rfl

theorem preserves_ofMonitor {c : Monitor.Program α} (hc : Preserves worldConnected c)
    (absent : α) : Preserves Objects.isConnected (monitor absent c) := by
  intro o
  unfold monitor
  split
  · rfl
  · exact hc _

theorem setupAside_isConnected : SetupAside Objects.isConnected where
  close := preserves_ofMonitor preserves_monitorClose ()
  discover := preserves_ofMonitor preserves_discover false
  createSubscriptions queues := preserves_ofMonitor (preserves_createSubscriptions queues) false
  assign _ _ := rfl
  openStatsQueue queueName := preserves_ofClient (preserves_openStatsQueue queueName)
  openAccountingQueue queueName := preserves_ofClient (preserves_openAccountingQueue queueName)
  subscribeToTopic topic := preserves_ofClient (preserves_subscribeToTopic topic)
  discoverQueues pattern :=
    preserves_ofClient (preserves_isConnected (preserves_discoverQueues pattern))
  assignQueues _ _ := rfl

theorem preserves_request (r : Request) : Preserves Objects.isConnected r.run := by
  cases r with
  | getQueueInfo queueName =>
      exact (preserves_ofClient (preserves_isConnected (preserves_getQueueInfo queueName))).bind
        fun _ => preserves_pure ()
  | sendPcfCommand cmd =>
      exact (preserves_ofClient (preserves_isConnected (preserves_sendPcfCommand cmd))).bind
        fun _ => preserves_pure ()
  | processPublications =>
      exact (preserves_ofMonitor preserves_processPublications []).bind fun _ =>
        preserves_pure ()
  | record f => exact fun _ => rfl

/-- In the message part of a cycle an `MQGET` finds the connection broken. -/
def meetsBroken (cfg : Config) (c : Metrics.MetricsCollector) : Bool :=
  (recorded Metrics.MetricsCollector.log (Metrics.collectAllMessages cfg.toConfig) c).any isBroken

/-- The connection behind a cycle. -/
theorem collectMetrics_isConnected (cfg : Config) (requests : List Request) (o : Objects) :
    (collectMetrics cfg requests o).2.isConnected =
      (o.isConnected && !meetsBroken cfg o.metrics) := by
  have hmessages : (metrics (Metrics.collectAllMessages cfg.toConfig) o).2.isConnected =
      (o.isConnected && !meetsBroken cfg o.metrics) :=
    (latches_collectAllMessages cfg.toConfig).flag_eq o.metrics
  have hrest : Preserves Objects.isConnected
      (forEach requests fun r => tryCatch r.run fun _ => (return : Program Unit)) :=
    preserves_forEach fun r _ => (preserves_request r).tryCatch fun _ => preserves_pure ()
  unfold collectMetrics
  rw [bind_apply]
  rcases hrun : metrics (Metrics.collectAllMessages cfg.toConfig) o with ⟨outcome, o'⟩
  rw [hrun] at hmessages
  cases outcome with
  | ok a => exact (hrest o').trans hmessages
  | raised e => exact hmessages
  | undefined => exact hmessages
  | pending => exact hmessages

end Methods

/-! ## Steps -/

/-- A step of the machine. -/
abbrev Step : Type := Transition Machine Action

/-- A step of the collector's thread at one of some places. -/
def Step.isAt (t : Step) (places : Pc → Bool) : Bool :=
  match t.action with
  | .collector _ => places t.before.pc
  | .main _ => false

/-- A call of `collect_cycle`. -/
def Step.isCycle (t : Step) : Bool := t.isAt Pc.isCycle

/-- A call of `try_connect`. -/
def Step.isTryConnect (t : Step) : Bool := t.isAt fun pc => decide (pc = .connect)

/-- The `disconnect` of `stop()`, while there is a connection. -/
def Step.isDisconnect (t : Step) : Bool :=
  match t.action with
  | .collector _ => false
  | .main _ => decide (t.before.main = .disconnecting) && t.before.isConnected

/-- The connection is lost: to the queue manager, as `get_message` notices it, or to
`stop()`. -/
def Step.loses (cfg : Config) (t : Step) : Prop :=
  (t.isCycle && meetsBroken cfg t.before.objects.metrics) = true ∨ t.isDisconnect = true

instance (cfg : Config) (t : Step) : Decidable (t.loses cfg) :=
  inferInstanceAs (Decidable (_ ∨ _))

/-- What is asked of a run: no cycle begins on a client that is disconnected, and
behind one that leaves it so while `running_` is set there is a `try_connect` before
the next. -/
structure Reconnects (trace : List Step) : Prop where
  connected : ∀ t ∈ trace, t.isCycle = true → t.before.isConnected = true
  reconnected : ∀ before t between u behind,
    trace = before ++ t :: (between ++ u :: behind) → t.isCycle = true → u.isCycle = true →
      t.after.isConnected = false → t.after.running = true →
        ∃ v ∈ between, v.isTryConnect = true

/-! ## The invariant -/

/-- The places up to the first connection. -/
def Pc.fresh : Pc → Bool
  | .start | .serving | .loop | .loopEnd | .qmgr | .connect | .retry _ | .finished
  | .failed => true
  | _ => false

/-- The places from the first connection to the end of `run_continuous`. -/
def Pc.engaged : Pc → Bool
  | .setup | .collect | .first | .test | .sleep _ | .wake | .rediscovery | .cycle | .count
  | .failed => true
  | _ => false

theorem Pc.not_isCycle_of_fresh {pc : Pc} (h : pc.fresh = true) : pc.isCycle = false := by
  cases pc with
  | first => cases h
  | cycle => cases h
  | once => cases h
  | _ => rfl

/-- There has been no connection yet. -/
structure Fresh (m : Machine) : Prop where
  pc : m.pc.fresh = true
  isConnected : m.isConnected = false
  connectedQmgr : m.connectedQmgr = false

/-- There has been a connection, and there will not be another one: the thread is in
`run_continuous`, or it has left it for good. -/
def Engaged (m : Machine) : Prop :=
  m.pc.engaged = true ∨
    m.running = false ∧ (m.pc = .left ∨ m.pc = .loop ∨ m.pc = .finished)

/-- The invariant of a run with `keep_running` and `continuous`: once the connection
has been made the client is connected as long as it has not been lost. -/
def Inv (lost : Prop) (m : Machine) : Prop :=
  (Fresh m ∧ ¬ lost) ∨ (Engaged m ∧ (m.isConnected = true ↔ ¬ lost))

section Invariant

variable {cfg : Config} {m m' : Machine} {lost : Prop}

/-- Outside the cycles a step of the collector does not lose the connection. -/
theorem not_loses {input : Input} (hpc : m.pc.isCycle = false) :
    ¬ Step.loses cfg ⟨.collector input, m, m'⟩ := by
  have hcycle : Step.isCycle ⟨.collector input, m, m'⟩ = false := hpc
  rintro (h | h)
  · rw [hcycle, Bool.false_and] at h
    cases h
  · cases h

/-- A cycle loses the connection if and only if it meets the broken connection. -/
theorem loses_cycle {input : Input} (hpc : m.pc.isCycle = true) :
    Step.loses cfg ⟨.collector input, m, m'⟩ ↔ meetsBroken cfg m.objects.metrics = true := by
  have hcycle : Step.isCycle ⟨.collector input, m, m'⟩ = true := hpc
  unfold Step.loses
  rw [hcycle, Bool.true_and]
  exact or_iff_left fun h => by cases h

theorem Fresh.goto {pc : Pc} (h : Fresh m) (hpc : pc.fresh = true) : Fresh (m.goto pc) :=
  ⟨hpc, h.isConnected, h.connectedQmgr⟩

/-- The step of a thread that has no connection yet. -/
theorem fresh_step (hkeep : cfg.keepRunning = true) {input : Input} (h : Fresh m)
    (hstep : m.collectorStep cfg input = some m') :
    Fresh m' ∨ (Engaged m' ∧ m'.isConnected = true) := by
  unfold Machine.collectorStep at hstep
  cases hpc : m.pc with
  | start | loop | loopEnd =>
      rw [hpc] at hstep
      obtain rfl := Option.some.inj hstep
      exact Or.inl (h.goto (ite_place rfl rfl))
  | serving =>
      rw [hpc] at hstep
      obtain rfl := Option.some.inj hstep
      split
      · exact Or.inl (h.goto rfl)
      · exact Or.inl ⟨rfl, h.isConnected, h.connectedQmgr⟩
  | qmgr =>
      rw [hpc] at hstep
      obtain rfl := Option.some.inj hstep
      rw [h.connectedQmgr]
      exact Or.inl (h.goto rfl)
  | connect =>
      rw [hpc] at hstep
      have hwp : wp (client Mq.connect) (fun _ o => o.isConnected = true)
          (fun _ o => o.isConnected = false) m.objects :=
        wp_zoom.mpr wp_connect_isConnected
      have hcall := Option.eq_some_of_filter_eq_some hstep
      rcases call_cases hwp hcall with ⟨o, ho, rfl⟩ | ⟨o, ho, rfl⟩
      · exact Or.inr ⟨Or.inl rfl, ho⟩
      · refine Or.inl ⟨?_, ho, rfl⟩
        rw [hkeep]
        rfl
  | retry n =>
      rw [hpc] at hstep
      cases n with
      | zero =>
          obtain rfl := Option.some.inj hstep
          exact Or.inl (h.goto rfl)
      | succ n =>
          obtain rfl := Option.some.inj hstep
          exact Or.inl (h.goto (ite_place rfl rfl))
  | finished | failed =>
      rw [hpc] at hstep
      cases hstep
  | _ => exact absurd h.pc (by rw [hpc]; exact Bool.false_ne_true)

/-- The thread goes on inside `run_continuous`, or leaves it because `running_` is
not set any more. -/
theorem Engaged.goto {pc : Pc} (h : pc.engaged = true) : Engaged (m.goto pc) := Or.inl h

theorem engaged_unless (hkeep : cfg.keepRunning = true) {pc : Pc} (h : pc.engaged = true) :
    Engaged (m.goto (if m.running then pc else leave cfg)) := by
  split
  · exact Or.inl h
  · next hrunning =>
      refine Or.inr ⟨Bool.eq_false_of_not_eq_true hrunning, Or.inl ?_⟩
      unfold leave
      rw [hkeep]
      rfl

/-- A cycle leads on, with the connection as it leaves it. -/
theorem collectCycle_isConnected {requests : List Request} {next : Pc}
    (hstep : m.collectCycle cfg requests next = some m') :
    m'.pc = next ∧
      m'.isConnected = (m.isConnected && !meetsBroken cfg m.objects.metrics) := by
  have hwp : wp (collectMetrics cfg requests)
      (fun _ o => o.isConnected = (m.isConnected && !meetsBroken cfg m.objects.metrics))
      (fun _ o => o.isConnected = (m.isConnected && !meetsBroken cfg m.objects.metrics))
      m.objects := wp_of_state (collectMetrics_isConnected cfg requests m.objects)
  rcases call_cases hwp hstep with ⟨o, ho, rfl⟩ | ⟨o, ho, rfl⟩
  · exact ⟨rfl, ho⟩
  · exact ⟨rfl, ho⟩

/-- What a step does to the connection: it stays, but for a step that loses it. -/
def Keeps (cfg : Config) (action : Action) (m m' : Machine) : Prop :=
  m'.isConnected = true ↔ m.isConnected = true ∧ ¬ Step.loses cfg ⟨action, m, m'⟩

theorem keeps_of_eq {action : Action} (hloses : ¬ Step.loses cfg ⟨action, m, m'⟩)
    (h : m'.isConnected = m.isConnected) : Keeps cfg action m m' := by
  unfold Keeps
  rw [h]
  exact (and_iff_left hloses).symm

theorem keeps_cycle {input : Input} {requests : List Request} {next : Pc}
    (hpc : m.pc.isCycle = true) (hstep : m.collectCycle cfg requests next = some m') :
    Keeps cfg (.collector input) m m' := by
  unfold Keeps
  rw [(collectCycle_isConnected hstep).2, loses_cycle hpc, Bool.and_eq_true, Bool.not_eq_true',
    Bool.not_eq_true]

/-- What a cycle does to the connection. -/
theorem cycle_keeps {action : Action} (hcycle : Step.isCycle ⟨action, m, m'⟩ = true)
    (hstep : m.step cfg action = some m') : Keeps cfg action m m' := by
  cases action with
  | main signal => cases hcycle
  | collector input =>
      have hat : m.pc.isCycle = true := hcycle
      have hstep' : m.collectorStep cfg input = some m' := hstep
      unfold Machine.collectorStep at hstep'
      cases hm : m.pc with
      | first | cycle | once =>
          rw [hm] at hstep'
          exact keeps_cycle hat hstep'
      | _ => exact absurd hat (by rw [hm]; exact Bool.false_ne_true)

/-- A thread that has had its connection goes on in `run_continuous`, or has left it. -/
theorem Engaged.leads (hkeep : cfg.keepRunning = true) (hcont : cfg.continuous = true)
    (h : Engaged m) : m.Leads cfg Engaged := by
  unfold Machine.Leads
  rcases h with hpc | ⟨hrunning, hpc | hpc | hpc⟩
  · cases hat : m.pc with
    | setup | rediscovery => exact ⟨Engaged.goto rfl, Engaged.goto rfl⟩
    | collect =>
        rw [hcont]
        exact Engaged.goto rfl
    | first | cycle => exact Engaged.goto rfl
    | test | wake => exact engaged_unless hkeep rfl
    | sleep n =>
        cases n with
        | zero => exact Engaged.goto rfl
        | succ n => exact engaged_unless hkeep rfl
    | count =>
        refine ⟨Or.inr ⟨rfl, Or.inl ?_⟩, Engaged.goto rfl⟩
        unfold leave
        rw [hkeep]
        rfl
    | failed => trivial
    | _ =>
        rw [hat] at hpc
        cases hpc
  -- `run_continuous` has been left, and the tests of `running_` end `start`
  · rw [hpc, hrunning]
    exact Or.inr ⟨hrunning, Or.inr (Or.inl rfl)⟩
  · rw [hpc, hrunning]
    exact Or.inr ⟨hrunning, Or.inr (Or.inr rfl)⟩
  · rw [hpc]
    trivial

theorem Engaged.collectorStep (hkeep : cfg.keepRunning = true) (hcont : cfg.continuous = true)
    {input : Input} (h : Engaged m) (hstep : m.collectorStep cfg input = some m') :
    Engaged m' := by
  have hsteered := collectorStep_leads (h.leads hkeep hcont) hstep
  exact hsteered

/-- It does not connect again, and does not make a new client. -/
theorem Engaged.elsewhere (h : Engaged m) : m.pc ≠ .connect ∧ m.pc ≠ .lost := by
  rcases h with hpc | ⟨-, hpc | hpc | hpc⟩
  · refine ⟨fun hat => ?_, fun hat => ?_⟩
    · rw [hat] at hpc
      cases hpc
    · rw [hat] at hpc
      cases hpc
  all_goals
    rw [hpc]
    exact ⟨nofun, nofun⟩

/-- Its step keeps the connection, but for a cycle that loses it. -/
theorem Engaged.keeps {input : Input} (h : Engaged m)
    (hstep : m.collectorStep cfg input = some m') : Keeps cfg (.collector input) m m' := by
  cases hcycle : m.pc.isCycle with
  | true => exact cycle_keeps hcycle hstep
  | false =>
      refine keeps_of_eq (not_loses hcycle) ?_
      refine collectorStep_within (R := Same Objects.isConnected)
        (Pc.program_within ?_ ?_ ?_ ?_ ?_) hstep
      · exact fun hat => absurd hat h.elsewhere.1
      · exact fun _ => (preserves_setupAfterConnect_of setupAside_isConnected cfg).within
      · exact fun hat => absurd (hcycle.symm.trans hat) Bool.false_ne_true
      · exact fun _ _ => (preserves_rediscover_of setupAside_isConnected cfg).within
      · exact fun hat => absurd hat h.elsewhere.2

/-- So does the main thread, but for the `disconnect` of `stop()`. -/
theorem keeps_aside {signal : Bool} (hplace : m.main ≠ .disconnecting)
    (h : m'.isConnected = m.isConnected) : Keeps cfg (.main signal) m m' := by
  refine keeps_of_eq ?_ h
  rintro (hloses | hloses)
  · cases hloses
  · have hmain : m.main = .disconnecting ∧ m.isConnected = true := by
      unfold Step.isDisconnect at hloses
      simpa using hloses
    exact hplace hmain.1

/-- Behind the `disconnect` there is no connection, and it has been lost if there was
one. -/
theorem keeps_disconnect {signal : Bool} (hat : m.main = .disconnecting)
    (h : m'.isConnected = false) : Keeps cfg (.main signal) m m' := by
  refine iff_of_false (fun hup => Bool.false_ne_true (h.symm.trans hup)) fun hup => hup.2 ?_
  refine Or.inr ?_
  show (decide (m.main = .disconnecting) && m.isConnected) = true
  rw [decide_eq_true hat, hup.1]
  rfl

theorem main_keeps (cfg : Config) {signal : Bool} (hstep : m.mainStep signal = some m') :
    Keeps cfg (.main signal) m m' := by
  by_cases hat : m.main = .disconnecting
  · refine keeps_disconnect hat ?_
    unfold Machine.mainStep at hstep
    rw [hat] at hstep
    have hwp : wp (tryCatch (client disconnect) fun _ => (return : Program Unit))
        (fun _ o => o.isConnected = false) (fun _ _ => False) m.objects := by
      have hdisconnect : wp (client disconnect) (fun _ o => o.isConnected = false)
          (fun _ _ => False) m.objects := wp_zoom.mpr wp_disconnect_isConnected
      rw [wp_tryCatch]
      exact wp_mono hdisconnect (fun _ _ h => h) fun _ _ h => False.elim h
    rcases call_cases hwp hstep with ⟨o, ho, rfl⟩ | ⟨o, ho, rfl⟩
    · exact ho
    · exact ho.elim
  · refine keeps_aside hat ?_
    refine mainStep_within (R := Same Objects.isConnected)
      (MainPc.program_within ?_ fun hmain => absurd hmain hat) hstep
    exact (setupAside_isConnected.close.bind fun _ =>
      preserves_resetMonitor_of setupAside_isConnected.toMonitorAside).within

/-- Every step keeps the invariant. -/
theorem tracks_inv (hkeep : cfg.keepRunning = true) (hcont : cfg.continuous = true) :
    Tracks (Machine.step cfg) (Step.loses cfg) Inv := by
  intro lost m action m' hinv hstep
  cases action with
  | collector input =>
      rcases hinv with ⟨hfresh, hlost⟩ | ⟨hengaged, hiff⟩
      · have hquiet : ¬ Step.loses cfg ⟨.collector input, m, m'⟩ :=
          not_loses (Pc.not_isCycle_of_fresh hfresh.pc)
        have hlost' : ¬ (lost ∨ Step.loses cfg ⟨.collector input, m, m'⟩) :=
          not_or.mpr ⟨hlost, hquiet⟩
        rcases fresh_step hkeep hfresh hstep with hfresh' | ⟨hengaged, hup⟩
        · exact Or.inl ⟨hfresh', hlost'⟩
        · exact Or.inr ⟨hengaged, iff_of_true hup hlost'⟩
      · refine Or.inr ⟨hengaged.collectorStep hkeep hcont hstep, ?_⟩
        refine (hengaged.keeps hstep).trans ?_
        rw [hiff, not_or]
  | main signal =>
      have hsame := (mainStep_place hstep).1
      have hkeeps := main_keeps cfg hstep
      rcases hinv with ⟨hfresh, hlost⟩ | ⟨hengaged, hiff⟩
      · have hquiet : ¬ Step.loses cfg ⟨.main signal, m, m'⟩ := by
          rintro (h | h)
          · cases h
          · have hdown : Step.isDisconnect ⟨.main signal, m, m'⟩ = false :=
              (congrArg (decide (m.main = .disconnecting) && ·) hfresh.isConnected).trans
                (Bool.and_false _)
            rw [hdown] at h
            cases h
        refine Or.inl ⟨⟨?_, ?_, ?_⟩, not_or.mpr ⟨hlost, hquiet⟩⟩
        · rw [hsame.pc, hfresh.pc]
        · refine Bool.eq_false_of_not_eq_true fun hup => ?_
          exact Bool.false_ne_true (hfresh.isConnected.symm.trans (hkeeps.mp hup).1)
        · rw [hsame.connectedQmgr, hfresh.connectedQmgr]
      · refine Or.inr ⟨?_, hkeeps.trans ?_⟩
        · unfold Engaged
          rw [hsame.pc]
          exact hengaged.imp_right fun h => ⟨hsame.running h.1, h.2⟩
        · rw [hiff, not_or]

theorem inv_initial (cfg : Config) (supply : List Reply) :
    Inv False (Machine.initial cfg supply) := Or.inl ⟨⟨rfl, rfl, rfl⟩, id⟩

/-- In front of a cycle the client is connected just as long as the connection has not
been lost. -/
theorem cycle_isConnected {lost : Prop} {action : Action} (hinv : Inv lost m)
    (hcycle : Step.isCycle ⟨action, m, m'⟩ = true) : m.isConnected = true ↔ ¬ lost := by
  rcases hinv with ⟨hfresh, -⟩ | ⟨-, hiff⟩
  · have hquiet := Pc.not_isCycle_of_fresh hfresh.pc
    cases action with
    | main signal => cases hcycle
    | collector input => exact absurd (hquiet.symm.trans hcycle) Bool.false_ne_true
  · exact hiff

theorem Inv.pc_ne_lost (h : Inv lost m) : m.pc ≠ .lost := by
  rcases h with ⟨hfresh, -⟩ | ⟨hengaged, -⟩
  · intro hpc
    exact absurd hfresh.pc (by rw [hpc]; exact Bool.false_ne_true)
  · exact hengaged.elsewhere.2

end Invariant

/-! ## Runs -/

/-- No cycle of a run comes behind a step that loses the connection. -/
def Unbroken (cfg : Config) (trace : List Step) : Prop :=
  trace.Pairwise fun t u => t.loses cfg → ¬ u.isCycle = true

/-- The branch of `start` that makes a new client is not reached in any run with
`continuous`. -/
theorem lost_unreached {cfg : Config} (hkeep : cfg.keepRunning = true)
    (hcont : cfg.continuous = true) {supply : List Reply} {actions : List Action}
    {trace : List Step}
    (hrun : history (Machine.step cfg) (Machine.initial cfg supply) actions = some trace) :
    ∀ t ∈ trace, t.before.pc ≠ .lost := by
  intro t ht
  obtain ⟨-, lost, hinv⟩ := (tracks_inv hkeep hcont).of_mem (inv_initial cfg supply) hrun ht
  exact hinv.pc_ne_lost

/-- A run reconnects as it should if and only if there is no need to: if no cycle comes
behind the loss of the connection. -/
theorem reconnects_iff {cfg : Config} (hkeep : cfg.keepRunning = true)
    (hcont : cfg.continuous = true) {supply : List Reply} {actions : List Action}
    {trace : List Step}
    (hrun : history (Machine.step cfg) (Machine.initial cfg supply) actions = some trace) :
    Reconnects trace ↔ Unbroken cfg trace := by
  have htracks := tracks_inv hkeep hcont
  have hinitial := inv_initial cfg supply
  have hiff := htracks.forall_iff (fun t : Step => t.isCycle = true)
    (fun m => m.isConnected = true) (fun _ _ _ _ hinv _ => cycle_isConnected hinv) hinitial hrun
  constructor
  · intro h
    exact (hiff.mp h.connected).2
  · intro h
    have hconnected := hiff.mpr ⟨False.elim, h⟩
    refine ⟨hconnected, ?_⟩
    -- a cycle behind which the client is not connected has lost the connection
    intro before t between u behind hsplit ht hu hdown _
    subst hsplit
    have hmem : t ∈ before ++ t :: (between ++ u :: behind) :=
      List.mem_append_right before List.mem_cons_self
    obtain ⟨hstep, -⟩ := htracks.of_mem hinitial hrun hmem
    have hloses : t.loses cfg := by
      by_contra hkept
      have hup := (cycle_keeps ht hstep).mpr ⟨hconnected t hmem ht, hkept⟩
      exact Bool.false_ne_true (hdown.symm.trans hup)
    have hlater := (List.pairwise_cons.mp (List.pairwise_append.mp h).2.1).1
    have humem : u ∈ between ++ u :: behind := List.mem_append_right between List.mem_cons_self
    exact absurd hu (hlater u humem hloses)

/-- A configuration with `continuous`, a cycle every second, and nothing else. -/
def everySecond : Config :=
  { queueManager := ascii "QM1", interval := 1, continuous := true, usePublications := false }

/-- The queue manager answers until both queues are open, and then the connection is
broken. -/
def brokenSupply : List Reply :=
  List.replicate 6 { cc := .ok } ++
    List.replicate 4 { cc := .failed, rc := mqrcConnectionBroken }

/-- The run to the second cycle. -/
def brokenRun : Option (List Step) :=
  history (Machine.step everySecond) (Machine.initial everySecond brokenSupply)
    (List.replicate 24 (.collector {}))

theorem brokenRun_cycles :
    (brokenRun.any fun trace => trace.any fun t => t.isCycle && !t.before.isConnected) =
      true := by decide +kernel

theorem reconnects_iff_brokenRun :
    ∃ trace, brokenRun = some trace ∧ (Reconnects trace ↔ Unbroken everySecond trace) := by
  obtain ⟨trace, htrace, -⟩ := (Option.any_eq_true _ _).mp brokenRun_cycles
  exact ⟨trace, htrace, reconnects_iff rfl rfl htrace⟩

/-- The second cycle of `brokenRun` begins on a client that is not connected. -/
theorem not_reconnects_brokenRun :
    ¬ ∀ (cfg : Config) (supply : List Reply) (actions : List Action) (trace : List Step),
      cfg.keepRunning = true → cfg.continuous = true →
        history (Machine.step cfg) (Machine.initial cfg supply) actions = some trace →
          Reconnects trace := by
  intro h
  obtain ⟨trace, htrace, hany⟩ := (Option.any_eq_true _ _).mp brokenRun_cycles
  obtain ⟨t, ht, hcycle⟩ := List.any_eq_true.mp hany
  have hup := (h everySecond brokenSupply _ trace rfl rfl htrace).connected t ht
  rw [Bool.and_eq_true, Bool.not_eq_true'] at hcycle
  exact Bool.false_ne_true (hcycle.2.symm.trans (hup hcycle.1))

end IbmmqExporter.Collector
