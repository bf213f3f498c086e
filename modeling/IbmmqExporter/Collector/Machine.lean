/-
  Collector/Machine.lean --- `Collector` of `collector.cpp` and its two threads.

  One thread runs `Collector::start`, the other is the main thread of `run_collector`,
  which waits and then calls `Collector::stop`.  They meet in the atomic flags of the
  collector.  A step of the machine is what a thread does from one access of a flag to
  the next; what it does with the client and the monitor at one place is one step too, so
  that the two threads are never in their calls at once.  `Collector/Overlap.lean` has the
  threads whose calls take time, and says in which of their runs this is so.

  The environment chooses which thread takes the next step, when the shutdown signal
  comes, whether the time for a rediscovery is up, and whether the port of the HTTP server
  is taken.  The answers of the queue manager are those that the session has in store.  A
  thread does not take a step while a call has not been answered, nor into undefined
  behaviour.

  WHAT IS LEFT OPEN.  Behind the messages of the statistics and accounting queues,
  `collect_metrics` inquires about queues and statuses and reads publications; here it
  makes any sequence of the calls of client and monitor that it makes for this, and
  any changes to the registry.
-/
import IbmmqExporter.Metrics.Messages
import IbmmqExporter.Monitor.ResourceMonitor
import IbmmqExporter.Mq.Discovery

set_option autoImplicit false

namespace IbmmqExporter.Collector

open Foundation Mq
open Monitor (ResourceMonitor)
open Metrics (MetricsCollector Registry)

/-! ## Configuration and objects -/

/-- The configuration as far as `Collector` reads it.  The durations are in seconds. -/
structure Config extends Metrics.Config where
  /-- `config_.mq`, but for the queue manager and the channel -/
  connection : Configuration.MQConfig := {}
  statsQueue : Bytes := ascii "SYSTEM.ADMIN.STATISTICS.QUEUE"
  accountingQueue : Bytes := ascii "SYSTEM.ADMIN.ACCOUNTING.QUEUE"
  interval : Int := 60
  maxCycles : Int := 0
  continuous : Bool := false
  keepRunning : Bool := true
  reconnectInterval : Int := 5
  usePublications : Bool := true
  rediscoverInterval : Int := 0
  monitoredQueues : List Bytes := []
  monitoredTopics : List Bytes := []

/-- `config_.mq`. -/
def Config.mq (cfg : Config) : Configuration.MQConfig :=
  { cfg.connection with queueManager := cfg.queueManager, channel := cfg.channel }

/-- What the collector owns: `metrics_collector_` with `mq_client_`,
`resource_monitor_` and `discovered_queues_`. -/
structure Objects where
  metrics : MetricsCollector := {}
  monitor : Option ResourceMonitor := none
  discoveredQueues : List Bytes := []

/-- A method that works on the objects. -/
abbrev Program (α : Type) : Type := Effect Objects StdException α

/-- The client and its queue manager. -/
def Objects.session (o : Objects) : Session := o.metrics.session

/-- Put a session in its place. -/
def Objects.withSession (s : Session) (o : Objects) : Objects :=
  { o with metrics := { o.metrics with session := s } }

/-- A method of the client. -/
def client {α : Type} (c : Method α) : Program α :=
  Effect.zoom Objects.session Objects.withSession c

/-- A method of the metrics collector. -/
def metrics {α : Type} (c : Metrics.Collect α) : Program α :=
  Effect.zoom Objects.metrics (fun m o => { o with metrics := m }) c

/-- A method of the monitor; `absent` if there is none. -/
def monitor {α : Type} (absent : α) (c : Monitor.Program α) : Program α := fun o =>
  match o.monitor with
  | none => (.ok absent, o)
  | some m =>
      let (outcome, w) := c { session := o.session, monitor := m }
      (outcome, { o.withSession w.session with monitor := some w.monitor })

/-- `resource_monitor_.reset()`, with the destructor of the monitor. -/
def resetMonitor : Program Unit := do
  monitor () Monitor.close
  Effect.modify fun o => { o with monitor := none }

/-! ## Connecting -/

/-- `!pattern.empty() && pattern[0] == '!'`. -/
def isExcluding (pattern : Bytes) : Bool := (ascii "!").isPrefixOf pattern

/-- The loop over `monitored_queues`, in `setup_after_connect` and in
`run_continuous`. -/
def discoverMonitored (patterns : List Bytes) : Program Unit :=
  Effect.forEach patterns fun pattern => Effect.when (isExcluding pattern = false) do
    let qs ← client (discoverQueues pattern)
    Effect.modify fun o => { o with discoveredQueues := o.discoveredQueues ++ qs }

/-- The resource monitor in `setup_after_connect`. -/
def setupMonitor (cfg : Config) : Program Unit :=
  Effect.tryCatch (do
      Effect.modify fun o => { o with monitor := some { qmgrName := cfg.queueManager } }
      let found ← monitor false Monitor.discover
      if found then
        let queues ← Effect.gets Objects.discoveredQueues
        let _ ← monitor false (Monitor.createSubscriptions queues)
      else resetMonitor)
    fun _ => resetMonitor

/-- `Collector::setup_after_connect`. -/
def setupAfterConnect (cfg : Config) : Program Unit := do
  Effect.tryCatch (client (openStatsQueue cfg.statsQueue)) fun _ => return
  Effect.tryCatch (client (openAccountingQueue cfg.accountingQueue)) fun _ => return
  Effect.forEach cfg.monitoredTopics fun topic => do
    let _ ← client (subscribeToTopic topic)
  discoverMonitored cfg.monitoredQueues
  Effect.when (cfg.usePublications = true) (setupMonitor cfg)

/-- What `start` does when the connection is lost: the old client is disconnected, the
monitor destroyed, and a new client made. -/
def renewClient (cfg : Config) : Program Unit := do
  Effect.tryCatch (client disconnect) fun _ => return
  resetMonitor
  Effect.modify fun o =>
    o.withSession { o.session with client := { config := cfg.mq } }

/-! ## Collecting -/

/-- What `collect_metrics` does behind the messages. -/
inductive Request where
  | getQueueInfo (queueName : Bytes)
  /-- `discover_queues` and every inquiry of a status -/
  | sendPcfCommand (cmd : Bytes)
  | processPublications
  | record (f : Registry → Registry)

/-- The call, but for what it returns. -/
def Request.run : Request → Program Unit
  | .getQueueInfo queueName => do let _ ← client (Mq.getQueueInfo queueName)
  | .sendPcfCommand cmd => do let _ ← client (Mq.sendPcfCommand cmd)
  | .processPublications => do let _ ← monitor [] Monitor.processPublications
  | .record f => metrics (Metrics.record f)

/-- `MetricsCollector::collect_metrics`. -/
def collectMetrics (cfg : Config) (requests : List Request) : Program Unit := do
  metrics (Metrics.collectAllMessages cfg.toConfig)
  Effect.forEach requests fun r => Effect.tryCatch r.run fun _ => return

/-- The rediscovery in `run_continuous`. -/
def rediscover (cfg : Config) : Program Unit := do
  Effect.modify fun o => { o with discoveredQueues := [] }
  discoverMonitored cfg.monitoredQueues

/-! ## The machine -/

/-- Where the thread of `Collector::start` is: at the statement it executes next. -/
inductive Pc where
  /-- `if (running_.load())` -/
  | start
  /-- `http_server_->start(); running_ = true;` -/
  | serving
  /-- `while (running_.load()` -/
  | loop
  /-- `&& !collector_end_.load())` -/
  | loopEnd
  /-- `if (!connected_qmgr_.load())` -/
  | qmgr
  /-- `try_connect()` -/
  | connect
  /-- the turns that are left of the sleep before the next attempt -/
  | retry (turns : Nat)
  /-- `running_ = false; return;` without `keep_running` -/
  | giveUp
  /-- `setup_after_connect()` -/
  | setup
  /-- `run_continuous()` or `run_once()` -/
  | collect
  /-- the initial `collect_cycle()` of `run_continuous` -/
  | first
  /-- `while (running_.load())` in `run_continuous` -/
  | test
  /-- the turns that are left of the sleep between two cycles -/
  | sleep (turns : Nat)
  /-- `if (!running_.load()) break;` behind the sleep -/
  | wake
  /-- the rediscovery, if it is due -/
  | rediscovery
  /-- `collect_cycle()` in the loop of `run_continuous` -/
  | cycle
  /-- `cycle_count_++` and the comparison with `max_cycles` -/
  | count
  /-- `collect_cycle()` in `run_once` -/
  | once
  /-- `collector_end_ = true;` behind `run_once()` -/
  | onceEnd
  /-- `if (running_.load()` behind the collection -/
  | left
  /-- `&& !collector_end_.load())` -/
  | leftEnd
  /-- what is done about a lost connection -/
  | lost
  /-- `start` has returned -/
  | finished
  /-- an exception has left `start` -/
  | failed
  deriving DecidableEq, Repr

/-- Where the main thread is. -/
inductive MainPc where
  /-- the loop over `g_shutdown_requested` and `is_running()` -/
  | waiting
  /-- `stop()`: `if (!running_.load()) return;` -/
  | stop
  /-- `running_ = false;` -/
  | lower
  /-- `collector_end_ = true;` -/
  | ending
  /-- `resource_monitor_->close(); resource_monitor_.reset();` -/
  | closing
  /-- `mq_client_->disconnect();` -/
  | disconnecting
  /-- `collector_thread.join();` -/
  | joining
  | joined
  deriving DecidableEq, Repr

/-- The collector and its threads. -/
structure Machine where
  objects : Objects := {}
  running : Bool := false
  collectorEnd : Bool := false
  connectedOnce : Bool := false
  connectedQmgr : Bool := false
  firstCollection : Bool := false
  cycleCount : Int := 0
  totalCollections : Int := 0
  errorCount : Int := 0
  pc : Pc := .start
  main : MainPc := .waiting

/-- The collector as `run_collector` makes it, and the answers to come. -/
def Machine.initial (cfg : Config) (supply : List Reply) : Machine :=
  { objects := { metrics := { session :=
      { mqi := { supply }, client := { config := cfg.mq } } } } }

/-- `mq_client_->is_connected()`. -/
def Machine.isConnected (m : Machine) : Bool := m.objects.session.client.connected

/-- Run a method; what follows depends on how it ends. -/
def Machine.call (m : Machine) (c : Program Unit) (returned raised : Machine → Machine) :
    Option Machine :=
  match c m.objects with
  | (.ok (), o) => some (returned { m with objects := o })
  | (.raised _, o) => some (raised { m with objects := o })
  | (.undefined, _) => none
  | (.pending, _) => none

/-- Go on at another place. -/
def Machine.goto (pc : Pc) (m : Machine) : Machine := { m with pc }

/-- `static_cast<int>(seconds.count()) * 10`, as a number. -/
def tenths (seconds : Int) : Int := (Int32.ofInt seconds).toInt * 10

/-- The product is an `int`.  The behaviour is undefined if it is not. -/
def Countable (seconds : Int) : Prop :=
  Int32.minValue.toInt ≤ tenths seconds ∧ tenths seconds ≤ Int32.maxValue.toInt

instance (seconds : Int) : Decidable (Countable seconds) :=
  inferInstanceAs (Decidable (_ ∧ _))

/-- The turns of a sleep in steps of 100 ms. -/
def turns (seconds : Int) : Nat := (tenths seconds).toNat

/-- Where `start` goes on behind the collection. -/
def leave (cfg : Config) : Pc := if cfg.keepRunning then .left else .finished

/-- `Collector::try_connect`, and what `start` does about its result.  With
`keep_running` the branch that gives up before the first connection is not taken. -/
def Machine.tryConnect (cfg : Config) (m : Machine) : Option Machine :=
  m.call (client Mq.connect)
    (fun m => { m with connectedQmgr := true, connectedOnce := true, pc := .setup })
    fun m =>
      { m with
        connectedQmgr := false
        pc := if cfg.keepRunning then .retry (turns cfg.reconnectInterval) else .giveUp }

/-- Where the sleep behind a failed attempt begins, its turns can be computed. -/
def Machine.countsRetry (cfg : Config) (m : Machine) : Bool :=
  match m.pc with
  | .retry _ => decide (Countable cfg.reconnectInterval)
  | _ => true

/-- `Collector::collect_cycle`. -/
def Machine.collectCycle (cfg : Config) (requests : List Request) (next : Pc) (m : Machine) :
    Option Machine :=
  m.call (collectMetrics cfg requests)
    (fun m =>
      { m with totalCollections := m.totalCollections + 1, firstCollection := true, pc := next })
    fun m =>
      { m with
        errorCount := m.errorCount + 1
        connectedQmgr := if m.isConnected then m.connectedQmgr else false
        pc := next }

/-- The end of the loop body of `run_continuous`. -/
def Machine.countCycle (cfg : Config) (m : Machine) : Machine :=
  if 0 < cfg.maxCycles ∧ cfg.maxCycles ≤ m.cycleCount + 1 then
    { m with cycleCount := m.cycleCount + 1, running := false, pc := leave cfg }
  else { m with cycleCount := m.cycleCount + 1, pc := .test }

/-- What the environment decides about a step of the collector: whether the time for a
rediscovery is up, what a cycle does behind the messages, and whether the constructor of
the `Exposer` throws because the port is taken. -/
structure Input where
  due : Bool := false
  requests : List Request := []
  portTaken : Bool := false

/-- A step of the thread of `Collector::start`. -/
def Machine.collectorStep (cfg : Config) (m : Machine) (input : Input) : Option Machine :=
  match m.pc with
  | .start => some (m.goto (if m.running then .finished else .serving))
  | .serving =>
      some (if input.portTaken then m.goto .failed
        else { m with running := true, pc := if cfg.keepRunning then .loop else .connect })
  | .loop => some (m.goto (if m.running then .loopEnd else .finished))
  | .loopEnd => some (m.goto (if m.collectorEnd then .finished else .qmgr))
  | .qmgr => some (m.goto (if m.connectedQmgr then .collect else .connect))
  | .connect => (m.tryConnect cfg).filter (Machine.countsRetry cfg)
  | .retry 0 => some (m.goto .loop)
  | .retry (n + 1) => some (m.goto (if m.running then .retry n else .loop))
  | .giveUp => some { m with running := false, pc := .finished }
  | .setup => m.call (setupAfterConnect cfg) (Machine.goto .collect) (Machine.goto .failed)
  | .collect => some (m.goto (if cfg.continuous then .first else .once))
  | .first => m.collectCycle cfg input.requests .test
  | .test =>
      if m.running = true ∧ ¬ Countable cfg.interval then none
      else some (m.goto (if m.running then .sleep (turns cfg.interval) else leave cfg))
  | .sleep 0 => some (m.goto .wake)
  | .sleep (n + 1) => some (m.goto (if m.running then .sleep n else leave cfg))
  | .wake => some (m.goto (if m.running then .rediscovery else leave cfg))
  | .rediscovery =>
      if 0 < cfg.rediscoverInterval ∧ input.due = true then
        m.call (rediscover cfg) (Machine.goto .cycle) (Machine.goto .failed)
      else some (m.goto .cycle)
  | .cycle => m.collectCycle cfg input.requests .count
  | .count => some (m.countCycle cfg)
  | .once => m.collectCycle cfg input.requests (if cfg.keepRunning then .onceEnd else .finished)
  | .onceEnd => some { m with collectorEnd := true, pc := .left }
  | .left => some (m.goto (if m.running then .leftEnd else .loop))
  | .leftEnd => some (m.goto (if m.collectorEnd then .loop else .lost))
  | .lost =>
      ({ m with connectedQmgr := false }).call (renewClient cfg) (Machine.goto .loop)
        (Machine.goto .failed)
  | .finished => none
  | .failed => none

/-- A step of the main thread; `signal` is `g_shutdown_requested`. -/
def Machine.mainStep (m : Machine) (signal : Bool) : Option Machine :=
  match m.main with
  | .waiting =>
      some { m with main := if signal = true ∨ m.running = false then .stop else .waiting }
  | .stop => some { m with main := if m.running then .lower else .joining }
  | .lower => some { m with running := false, main := .ending }
  | .ending => some { m with collectorEnd := true, main := .closing }
  -- neither of the two calls below throws
  | .closing =>
      m.call (do
          monitor () Monitor.close
          resetMonitor)
        (fun m => { m with main := .disconnecting }) fun m => { m with main := .joined }
  | .disconnecting =>
      m.call (Effect.tryCatch (client disconnect) fun _ => return)
        (fun m => { m with main := .joining }) fun m => { m with main := .joined }
  | .joining =>
      if m.pc = .finished ∨ m.pc = .failed then some { m with main := .joined } else none
  | .joined => none

/-- What the environment chooses for a step. -/
inductive Action where
  | collector (input : Input)
  | main (signal : Bool)

/-- A step of one of the threads. -/
def Machine.step (cfg : Config) (m : Machine) : Action → Option Machine
  | .collector input => m.collectorStep cfg input
  | .main signal => m.mainStep signal

end IbmmqExporter.Collector
