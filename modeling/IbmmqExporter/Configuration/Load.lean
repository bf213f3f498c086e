/-
  Configuration/Load.lean --- where the configuration comes from.

  `load_config` starts from the defaults, takes over what the file says, completes the
  connection name, and takes over the environment; `run_collector` then takes over the
  options of the command line.  A file is what yaml-cpp delivers of it: a value for each
  key that it has.  The command line is what CLI11 delivers of it: the options that are
  given, in place of their defaults.
-/
import IbmmqExporter.Configuration.Config
import IbmmqExporter.Foundation.Accumulator

set_option autoImplicit false

namespace IbmmqExporter.Configuration

open Foundation

/-- What reading the configuration comes to. -/
abbrev Reading (α : Type) : Type := Outcome StdException α

/-! ## Durations -/

/-- `std::isspace` in the C locale. -/
def isSpace (c : UInt8) : Bool := c = 32 ∨ (9 ≤ c ∧ c ≤ 13)

/-- `std::isdigit`. -/
def isDigit (c : UInt8) : Bool := 48 ≤ c ∧ c ≤ 57

/-- The number that the digits denote. -/
def number (digits : Bytes) : Int := digits.foldl (fun n c => 10 * n + (c.toNat - 48 : Int)) 0

/-- `%d` of `sscanf`: the number, and what stands behind it; none if there is none. -/
def scanInt (s : Bytes) : Option (Int × Bytes) :=
  let s := s.dropWhile isSpace
  let negative := s.head? = (ascii "-").head?
  let s := if negative ∨ s.head? = (ascii "+").head? then s.drop 1 else s
  let digits := s.takeWhile isDigit
  if digits = [] then none
  else some (if negative then -number digits else number digits, s.dropWhile isDigit)

/-- The seconds that `parse_duration` returns; none where an `int` overflows. -/
def durationOf (s : Bytes) (dflt : Int) : Option Int :=
  if s = [] then some dflt
  else
    match scanInt s with
    | none => some dflt
    | some (val, rest) =>
        if ¬ InInt32 val then none
        else if rest.head? = (ascii "m").head? then
          if InInt32 (val * 60) then some (val * 60) else none
        else some val

/-- `parse_duration`. -/
def parseDuration (s : Bytes) (dflt : Int) : Reading Int :=
  match durationOf s dflt with
  | some seconds => return seconds
  | none => .undefined

/-! ## The file -/

/-- The section `mq`. -/
structure MqSection where
  queueManager : Option Bytes := none
  channel : Option Bytes := none
  connectionName : Option Bytes := none
  host : Option Bytes := none
  port : Option Int32 := none
  user : Option Bytes := none
  username : Option Bytes := none
  password : Option Bytes := none
  keyRepository : Option Bytes := none
  cipherSpec : Option Bytes := none

/-- The section `collector`. -/
structure CollectorSection where
  statsQueue : Option Bytes := none
  accountingQueue : Option Bytes := none
  resetStats : Option Bool := none
  continuous : Option Bool := none
  maxCycles : Option Int32 := none
  monitorAllQueues : Option Bool := none
  interval : Option Bytes := none
  queueExclusionPatterns : Option (List Bytes) := none
  keepRunning : Option Bool := none
  reconnectInterval : Option Bytes := none
  useStatus : Option Bool := none
  useStatistics : Option Bool := none
  useResetQStats : Option Bool := none
  usePublications : Option Bool := none
  rediscoverInterval : Option Bytes := none
  monitoredQueues : Option (List Bytes) := none
  monitoredChannels : Option (List Bytes) := none
  monitoredTopics : Option (List Bytes) := none
  monitoredSubscriptions : Option (List Bytes) := none
  monitoredAmqpChannels : Option (List Bytes) := none
  monitoredMqttChannels : Option (List Bytes) := none
  queueSubscriptionSelector : Option Bytes := none

/-- The section `prometheus`. -/
structure PrometheusSection where
  port : Option Int32 := none
  path : Option Bytes := none
  metricsNamespace : Option Bytes := none
  subsystem : Option Bytes := none
  enableOtel : Option Bool := none
  host : Option Bytes := none
  httpsCertFile : Option Bytes := none
  httpsKeyFile : Option Bytes := none
  overrideCType : Option Bool := none

/-- The section `metadata`. -/
structure MetadataSection where
  metaPrefix : Option Bytes := none
  locale : Option Bytes := none
  metadataTags : Option (List Bytes) := none
  metadataValues : Option (List Bytes) := none

/-- The section `logging`. -/
structure LoggingSection where
  level : Option Bytes := none
  format : Option Bytes := none
  outputFile : Option Bytes := none
  verbose : Option Bool := none

/-- The content of a file; where there is no file it is empty. -/
structure YamlFile where
  mq : Option MqSection := none
  collector : Option CollectorSection := none
  prometheus : Option PrometheusSection := none
  metadata : Option MetadataSection := none
  logging : Option LoggingSection := none

/-- `parse_string_list`: a key that is missing is an empty list. -/
def parseStringList (node : Option (List Bytes)) : List Bytes := node.getD []

/-- A duration, if the file has it. -/
def durationOr (node : Option Bytes) (dflt current : Int) : Reading Int :=
  match node with
  | some s => parseDuration s dflt
  | none => return current

def MqSection.apply (mq : MqSection) (c : MQConfig) : MQConfig where
  queueManager := mq.queueManager.getD c.queueManager
  channel := mq.channel.getD c.channel
  connectionName := mq.connectionName.getD c.connectionName
  host := mq.host.getD c.host
  port := mq.port.getD c.port
  user := mq.user.getD c.user
  username := mq.username.getD c.username
  password := mq.password.getD c.password
  keyRepository := mq.keyRepository.getD c.keyRepository
  cipherSpec := mq.cipherSpec.getD c.cipherSpec

def CollectorSection.apply (col : CollectorSection) (c : CollectorConfig) :
    Reading CollectorConfig := do
  let interval ← durationOr col.interval 60 c.interval
  let reconnectInterval ← durationOr col.reconnectInterval 5 c.reconnectInterval
  let rediscoverInterval ← durationOr col.rediscoverInterval 0 c.rediscoverInterval
  return {
    statsQueue := col.statsQueue.getD c.statsQueue
    accountingQueue := col.accountingQueue.getD c.accountingQueue
    resetStats := col.resetStats.getD c.resetStats
    continuous := col.continuous.getD c.continuous
    maxCycles := col.maxCycles.getD c.maxCycles
    monitorAllQueues := col.monitorAllQueues.getD c.monitorAllQueues
    interval
    queueExclusionPatterns := parseStringList col.queueExclusionPatterns
    keepRunning := col.keepRunning.getD c.keepRunning
    reconnectInterval
    useStatus := col.useStatus.getD c.useStatus
    useStatistics := col.useStatistics.getD c.useStatistics
    useResetQStats := col.useResetQStats.getD c.useResetQStats
    usePublications := col.usePublications.getD c.usePublications
    rediscoverInterval
    monitoredQueues := parseStringList col.monitoredQueues
    monitoredChannels := parseStringList col.monitoredChannels
    monitoredTopics := parseStringList col.monitoredTopics
    monitoredSubscriptions := parseStringList col.monitoredSubscriptions
    monitoredAmqpChannels := parseStringList col.monitoredAmqpChannels
    monitoredMqttChannels := parseStringList col.monitoredMqttChannels
    queueSubscriptionSelector := col.queueSubscriptionSelector.getD c.queueSubscriptionSelector }

def PrometheusSection.apply (prom : PrometheusSection) (c : PrometheusConfig) :
    PrometheusConfig where
  port := prom.port.getD c.port
  path := prom.path.getD c.path
  metricsNamespace := prom.metricsNamespace.getD c.metricsNamespace
  subsystem := prom.subsystem.getD c.subsystem
  enableOtel := prom.enableOtel.getD c.enableOtel
  host := prom.host.getD c.host
  httpsCertFile := prom.httpsCertFile.getD c.httpsCertFile
  httpsKeyFile := prom.httpsKeyFile.getD c.httpsKeyFile
  overrideCType := prom.overrideCType.getD c.overrideCType

def MetadataSection.apply (m : MetadataSection) (c : MetadataConfig) : MetadataConfig where
  metaPrefix := m.metaPrefix.getD c.metaPrefix
  locale := m.locale.getD c.locale
  metadataTags := parseStringList m.metadataTags
  metadataValues := parseStringList m.metadataValues

def LoggingSection.apply (log : LoggingSection) (c : LoggingConfig) : LoggingConfig where
  level := log.level.getD c.level
  format := log.format.getD c.format
  outputFile := log.outputFile.getD c.outputFile
  verbose := log.verbose.getD c.verbose

/-- The part of `load_config` about the file. -/
def YamlFile.apply (root : YamlFile) (cfg : Config) : Reading Config := do
  let collector ←
    (match root.collector with
    | some col => col.apply cfg.collector
    | none => return cfg.collector)
  return {
    mq := root.mq.elim cfg.mq fun mq => mq.apply cfg.mq
    collector
    prometheus := root.prometheus.elim cfg.prometheus fun prom => prom.apply cfg.prometheus
    metadata := root.metadata.elim cfg.metadata fun m => m.apply cfg.metadata
    logging := root.logging.elim cfg.logging fun log => log.apply cfg.logging }

/-! ## The environment -/

/-- `getenv`. -/
abbrev Environment : Type := String → Option Bytes

/-- `get_env`. -/
def getEnv (env : Environment) (name : String) : Bytes := (env name).getD []

/-- `if (!env_val.empty()) field = env_val;` -/
def orElse (envVal field : Bytes) : Bytes := if envVal ≠ [] then envVal else field

/-- The connection name from host and port, if it is not set. -/
def MQConfig.withConnectionName (mq : MQConfig) : MQConfig :=
  if mq.connectionName = [] ∧ mq.host ≠ [] ∧ 0 < mq.port then
    { mq with connectionName := hostAndPort mq.host mq.port }
  else mq

/-- The part of `load_config` about the environment. -/
def MQConfig.withEnvironment (mq : MQConfig) (env : Environment) : MQConfig :=
  { mq with
    queueManager := orElse (getEnv env "IBMMQ_QUEUE_MANAGER") mq.queueManager
    channel := orElse (getEnv env "IBMMQ_CHANNEL") mq.channel
    connectionName := orElse (getEnv env "IBMMQ_CONNECTION_NAME") mq.connectionName
    user := orElse (getEnv env "IBMMQ_USER") mq.user
    password := orElse (getEnv env "IBMMQ_PASSWORD") mq.password
    keyRepository := orElse (getEnv env "IBMMQ_KEY_REPOSITORY") mq.keyRepository
    cipherSpec := orElse (getEnv env "IBMMQ_CIPHER_SPEC") mq.cipherSpec }

/-- `override_c_type` is forced by `use_statistics`. -/
def Config.withOverrideCType (cfg : Config) : Config :=
  if cfg.collector.useStatistics then
    { cfg with prometheus := { cfg.prometheus with overrideCType := true } }
  else cfg

/-- `load_config`. -/
def loadConfig (root : YamlFile) (env : Environment) : Reading Config := do
  let cfg ← root.apply defaultConfig
  return { cfg with mq := cfg.mq.withConnectionName.withEnvironment env }.withOverrideCType

/-! ## The command line -/

/-- The options that are given. -/
structure Options where
  continuous : Bool := false
  interval : Option Int32 := none
  maxCycles : Option Int32 := none
  resetStats : Bool := false
  prometheusPort : Option Int32 := none
  logLevel : Option Bytes := none
  logFormat : Option Bytes := none
  verbose : Bool := false

/-- The part of `run_collector` about the command line. -/
def Config.withOptions (cfg : Config) (o : Options) : Config :=
  let intervalSec := o.interval.getD 60
  let maxCycles := o.maxCycles.getD 0
  let promPort := o.prometheusPort.getD 9090
  let logLevel := o.logLevel.getD (ascii "info")
  let logFormat := o.logFormat.getD (ascii "json")
  { cfg with
    collector :=
      { cfg.collector with
        continuous := if o.continuous then true else cfg.collector.continuous
        interval := if intervalSec ≠ 60 then intervalSec.toInt else cfg.collector.interval
        maxCycles := if maxCycles ≠ 0 then maxCycles else cfg.collector.maxCycles
        resetStats := if o.resetStats then true else cfg.collector.resetStats }
    prometheus :=
      { cfg.prometheus with port := if promPort ≠ 9090 then promPort else cfg.prometheus.port }
    logging :=
      { cfg.logging with
        verbose := if o.verbose then true else cfg.logging.verbose
        level := if logLevel ≠ ascii "info" then logLevel else cfg.logging.level
        format := if logFormat ≠ ascii "json" then logFormat else cfg.logging.format } }

/-- The configuration that `run_collector` makes the collector with. -/
def runConfig (root : YamlFile) (env : Environment) (o : Options) : Reading Config := do
  let cfg ← loadConfig root env
  let cfg := cfg.withOptions o
  cfg.validate
  return cfg

end IbmmqExporter.Configuration
