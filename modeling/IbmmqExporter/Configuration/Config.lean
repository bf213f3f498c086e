/-
  Configuration/Config.lean --- the configuration of the program.

  `Config` of `config.h` with its accessors, `default_config` and `Config::validate`.
  A time is a number of seconds.
-/
import IbmmqExporter.Pcf.Parameter

set_option autoImplicit false

namespace IbmmqExporter.Configuration

open Foundation

/-! ## Data -/

structure MQConfig where
  queueManager : Bytes := []
  channel : Bytes := []
  connectionName : Bytes := []
  host : Bytes := []
  port : Int32 := 0
  user : Bytes := []
  username : Bytes := []
  password : Bytes := []
  keyRepository : Bytes := []
  cipherSpec : Bytes := []
  deriving DecidableEq, Repr

structure CollectorConfig where
  statsQueue : Bytes := ascii "SYSTEM.ADMIN.STATISTICS.QUEUE"
  accountingQueue : Bytes := ascii "SYSTEM.ADMIN.ACCOUNTING.QUEUE"
  resetStats : Bool := false
  interval : Int := 60
  maxCycles : Int32 := 0
  continuous : Bool := false
  monitorAllQueues : Bool := true
  queueExclusionPatterns : List Bytes := []
  keepRunning : Bool := true
  reconnectInterval : Int := 5
  useStatus : Bool := true
  useStatistics : Bool := false
  useResetQStats : Bool := false
  usePublications : Bool := true
  rediscoverInterval : Int := 0
  monitoredQueues : List Bytes := []
  monitoredChannels : List Bytes := []
  monitoredTopics : List Bytes := []
  monitoredSubscriptions : List Bytes := []
  monitoredAmqpChannels : List Bytes := []
  monitoredMqttChannels : List Bytes := []
  queueSubscriptionSelector : Bytes := []
  deriving DecidableEq

structure PrometheusConfig where
  port : Int32 := 9091
  path : Bytes := ascii "/metrics"
  metricsNamespace : Bytes := ascii "ibmmq"
  subsystem : Bytes := []
  enableOtel : Bool := false
  host : Bytes := ascii "0.0.0.0"
  httpsCertFile : Bytes := []
  httpsKeyFile : Bytes := []
  overrideCType : Bool := false
  deriving DecidableEq

structure MetadataConfig where
  metaPrefix : Bytes := []
  metadataTags : List Bytes := []
  metadataValues : List Bytes := []
  locale : Bytes := []
  deriving DecidableEq

structure LoggingConfig where
  level : Bytes := ascii "info"
  format : Bytes := ascii "json"
  outputFile : Bytes := []
  verbose : Bool := false
  deriving DecidableEq

structure Config where
  mq : MQConfig := {}
  collector : CollectorConfig := {}
  prometheus : PrometheusConfig := {}
  metadata : MetadataConfig := {}
  logging : LoggingConfig := {}
  deriving DecidableEq

/-- `default_config`: what it assigns are the defaults of the fields. -/
def defaultConfig : Config := {}

/-! ## Accessors -/

/-- `host(port)`. -/
def hostAndPort (host : Bytes) (port : Int32) : Bytes :=
  host ++ ascii "(" ++ decimal port ++ ascii ")"

/-- `MQConfig::get_connection_name`. -/
def MQConfig.getConnectionName (mq : MQConfig) : Bytes :=
  if mq.connectionName ≠ [] then mq.connectionName
  else if mq.host ≠ [] ∧ 0 < mq.port then hostAndPort mq.host mq.port
  else []

/-- `MQConfig::get_user`. -/
def MQConfig.getUser (mq : MQConfig) : Bytes :=
  if mq.username ≠ [] then mq.username else mq.user

/-- `MQConfig::is_client_mode`. -/
def MQConfig.isClientMode (mq : MQConfig) : Bool :=
  mq.getConnectionName ≠ [] ∨ mq.host ≠ []

/-! ## Validation -/

/-- `throw std::runtime_error(what)`, if the test fails. -/
def require (test : Bool) (what : String) : Outcome StdException Unit :=
  if test then return () else .raised (.runtimeError (ascii what))

/-- `Config::validate`. -/
def Config.validate (cfg : Config) : Outcome StdException Unit := do
  require (cfg.mq.queueManager ≠ []) "queue manager name is required"
  if cfg.mq.isClientMode then
    require (cfg.mq.channel ≠ []) "channel name is required for client mode"
    require (cfg.mq.getConnectionName ≠ [])
      "connection name is required (provide either connection_name or host/port)"
  require (1 ≤ cfg.collector.interval) "collection interval must be at least 1 second"
  require (1 ≤ cfg.prometheus.port ∧ cfg.prometheus.port ≤ 65535)
    "prometheus port must be between 1 and 65535"
  require (cfg.metadata.metadataTags.length = cfg.metadata.metadataValues.length ∨
      cfg.metadata.metadataTags = [])
    "metadata_tags and metadata_values must have the same length"

end IbmmqExporter.Configuration
