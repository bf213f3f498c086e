/-
  Configuration/Precedence.lean --- which source a setting is taken from.

  A setting has a default and up to three sources: the file, the environment and the
  command line.  Asked is the value of the command line, else that of the environment,
  else that of the file, else the default.

  WHAT THE FILE PROVES.  The program takes that value for each of its settings, and where
  `use_statistics` is on it turns on `override_c_type`.  It does not where an option is
  given the value by which it is told from one that is not given, or where a `username` of
  the file hides the user of the environment.
-/
import IbmmqExporter.Configuration.Load

set_option autoImplicit false

namespace IbmmqExporter.Configuration

open Foundation

/-! ## Settings -/

/-- What the sources say about a setting. -/
structure Layers (α : Type) where
  commandLine : Option α := none
  environment : Option α := none
  file : Option α := none
  dflt : α

/-- The value where the command line says nothing. -/
def Layers.below {α : Type} (l : Layers α) : α := (l.environment <|> l.file).getD l.dflt

/-- The value of the first source that has one. -/
def Layers.value {α : Type} (l : Layers α) : α := l.commandLine.getD l.below

/-- The settings. -/
inductive Setting : Type → Type where
  | queueManager : Setting Bytes
  | channel : Setting Bytes
  | connectionName : Setting Bytes
  | host : Setting Bytes
  | mqPort : Setting Int32
  | user : Setting Bytes
  | password : Setting Bytes
  | keyRepository : Setting Bytes
  | cipherSpec : Setting Bytes
  | statsQueue : Setting Bytes
  | accountingQueue : Setting Bytes
  | resetStats : Setting Bool
  | interval : Setting Int
  | maxCycles : Setting Int32
  | continuous : Setting Bool
  | monitorAllQueues : Setting Bool
  | queueExclusionPatterns : Setting (List Bytes)
  | keepRunning : Setting Bool
  | reconnectInterval : Setting Int
  | useStatus : Setting Bool
  | useStatistics : Setting Bool
  | useResetQStats : Setting Bool
  | usePublications : Setting Bool
  | rediscoverInterval : Setting Int
  | monitoredQueues : Setting (List Bytes)
  | monitoredChannels : Setting (List Bytes)
  | monitoredTopics : Setting (List Bytes)
  | monitoredSubscriptions : Setting (List Bytes)
  | monitoredAmqpChannels : Setting (List Bytes)
  | monitoredMqttChannels : Setting (List Bytes)
  | queueSubscriptionSelector : Setting Bytes
  | prometheusPort : Setting Int32
  | path : Setting Bytes
  | metricsNamespace : Setting Bytes
  | subsystem : Setting Bytes
  | enableOtel : Setting Bool
  | prometheusHost : Setting Bytes
  | httpsCertFile : Setting Bytes
  | httpsKeyFile : Setting Bytes
  | overrideCType : Setting Bool
  | metaPrefix : Setting Bytes
  | metadataTags : Setting (List Bytes)
  | metadataValues : Setting (List Bytes)
  | locale : Setting Bytes
  | logLevel : Setting Bytes
  | logFormat : Setting Bytes
  | outputFile : Setting Bytes
  | verbose : Setting Bool

/-- The value that the program uses. -/
def Setting.used (cfg : Config) : {α : Type} → Setting α → α
  | _, queueManager => cfg.mq.queueManager
  | _, channel => cfg.mq.channel
  | _, connectionName => cfg.mq.getConnectionName
  | _, host => cfg.mq.host
  | _, mqPort => cfg.mq.port
  | _, user => cfg.mq.getUser
  | _, password => cfg.mq.password
  | _, keyRepository => cfg.mq.keyRepository
  | _, cipherSpec => cfg.mq.cipherSpec
  | _, statsQueue => cfg.collector.statsQueue
  | _, accountingQueue => cfg.collector.accountingQueue
  | _, resetStats => cfg.collector.resetStats
  | _, interval => cfg.collector.interval
  | _, maxCycles => cfg.collector.maxCycles
  | _, continuous => cfg.collector.continuous
  | _, monitorAllQueues => cfg.collector.monitorAllQueues
  | _, queueExclusionPatterns => cfg.collector.queueExclusionPatterns
  | _, keepRunning => cfg.collector.keepRunning
  | _, reconnectInterval => cfg.collector.reconnectInterval
  | _, useStatus => cfg.collector.useStatus
  | _, useStatistics => cfg.collector.useStatistics
  | _, useResetQStats => cfg.collector.useResetQStats
  | _, usePublications => cfg.collector.usePublications
  | _, rediscoverInterval => cfg.collector.rediscoverInterval
  | _, monitoredQueues => cfg.collector.monitoredQueues
  | _, monitoredChannels => cfg.collector.monitoredChannels
  | _, monitoredTopics => cfg.collector.monitoredTopics
  | _, monitoredSubscriptions => cfg.collector.monitoredSubscriptions
  | _, monitoredAmqpChannels => cfg.collector.monitoredAmqpChannels
  | _, monitoredMqttChannels => cfg.collector.monitoredMqttChannels
  | _, queueSubscriptionSelector => cfg.collector.queueSubscriptionSelector
  | _, prometheusPort => cfg.prometheus.port
  | _, path => cfg.prometheus.path
  | _, metricsNamespace => cfg.prometheus.metricsNamespace
  | _, subsystem => cfg.prometheus.subsystem
  | _, enableOtel => cfg.prometheus.enableOtel
  | _, prometheusHost => cfg.prometheus.host
  | _, httpsCertFile => cfg.prometheus.httpsCertFile
  | _, httpsKeyFile => cfg.prometheus.httpsKeyFile
  | _, overrideCType => cfg.prometheus.overrideCType
  | _, metaPrefix => cfg.metadata.metaPrefix
  | _, metadataTags => cfg.metadata.metadataTags
  | _, metadataValues => cfg.metadata.metadataValues
  | _, locale => cfg.metadata.locale
  | _, logLevel => cfg.logging.level
  | _, logFormat => cfg.logging.format
  | _, outputFile => cfg.logging.outputFile
  | _, verbose => cfg.logging.verbose

/-- The value of a variable that is set and not empty. -/
def nonEmpty (env : Environment) (name : String) : Option Bytes :=
  if getEnv env name = [] then none else some (getEnv env name)

/-- A flag can only be given. -/
def given (flag : Bool) : Option Bool := if flag then some true else none

section Sources

variable (root : YamlFile) (env : Environment) (o : Options)

/-- What the sources say. -/
def Setting.layers : {α : Type} → Setting α → Layers α
  | _, queueManager =>
      { environment := nonEmpty env "IBMMQ_QUEUE_MANAGER"
        file := root.mq.bind (·.queueManager), dflt := [] }
  | _, channel =>
      { environment := nonEmpty env "IBMMQ_CHANNEL"
        file := root.mq.bind (·.channel), dflt := [] }
  | _, connectionName =>
      { environment := nonEmpty env "IBMMQ_CONNECTION_NAME"
        file := root.mq.map fun mq => (mq.apply {}).getConnectionName, dflt := [] }
  | _, host => { file := root.mq.bind (·.host), dflt := [] }
  | _, mqPort => { file := root.mq.bind (·.port), dflt := 0 }
  | _, user =>
      { environment := nonEmpty env "IBMMQ_USER"
        file := root.mq.map fun mq => (mq.apply {}).getUser, dflt := [] }
  | _, password =>
      { environment := nonEmpty env "IBMMQ_PASSWORD"
        file := root.mq.bind (·.password), dflt := [] }
  | _, keyRepository =>
      { environment := nonEmpty env "IBMMQ_KEY_REPOSITORY"
        file := root.mq.bind (·.keyRepository), dflt := [] }
  | _, cipherSpec =>
      { environment := nonEmpty env "IBMMQ_CIPHER_SPEC"
        file := root.mq.bind (·.cipherSpec), dflt := [] }
  | _, statsQueue =>
      { file := root.collector.bind (·.statsQueue)
        dflt := ascii "SYSTEM.ADMIN.STATISTICS.QUEUE" }
  | _, accountingQueue =>
      { file := root.collector.bind (·.accountingQueue)
        dflt := ascii "SYSTEM.ADMIN.ACCOUNTING.QUEUE" }
  | _, resetStats =>
      { commandLine := given o.resetStats, file := root.collector.bind (·.resetStats)
        dflt := false }
  | _, interval =>
      { commandLine := o.interval.map Int32.toInt
        file := (root.collector.bind (·.interval)).bind fun s => durationOf s 60, dflt := 60 }
  | _, maxCycles =>
      { commandLine := o.maxCycles, file := root.collector.bind (·.maxCycles), dflt := 0 }
  | _, continuous =>
      { commandLine := given o.continuous, file := root.collector.bind (·.continuous)
        dflt := false }
  | _, monitorAllQueues => { file := root.collector.bind (·.monitorAllQueues), dflt := true }
  | _, queueExclusionPatterns =>
      { file := root.collector.bind (·.queueExclusionPatterns), dflt := [] }
  | _, keepRunning => { file := root.collector.bind (·.keepRunning), dflt := true }
  | _, reconnectInterval =>
      { file := (root.collector.bind (·.reconnectInterval)).bind fun s => durationOf s 5
        dflt := 5 }
  | _, useStatus => { file := root.collector.bind (·.useStatus), dflt := true }
  | _, useStatistics => { file := root.collector.bind (·.useStatistics), dflt := false }
  | _, useResetQStats => { file := root.collector.bind (·.useResetQStats), dflt := false }
  | _, usePublications => { file := root.collector.bind (·.usePublications), dflt := true }
  | _, rediscoverInterval =>
      { file := (root.collector.bind (·.rediscoverInterval)).bind fun s => durationOf s 0
        dflt := 0 }
  | _, monitoredQueues => { file := root.collector.bind (·.monitoredQueues), dflt := [] }
  | _, monitoredChannels => { file := root.collector.bind (·.monitoredChannels), dflt := [] }
  | _, monitoredTopics => { file := root.collector.bind (·.monitoredTopics), dflt := [] }
  | _, monitoredSubscriptions =>
      { file := root.collector.bind (·.monitoredSubscriptions), dflt := [] }
  | _, monitoredAmqpChannels =>
      { file := root.collector.bind (·.monitoredAmqpChannels), dflt := [] }
  | _, monitoredMqttChannels =>
      { file := root.collector.bind (·.monitoredMqttChannels), dflt := [] }
  | _, queueSubscriptionSelector =>
      { file := root.collector.bind (·.queueSubscriptionSelector), dflt := [] }
  | _, prometheusPort =>
      { commandLine := o.prometheusPort, file := root.prometheus.bind (·.port), dflt := 9091 }
  | _, path => { file := root.prometheus.bind (·.path), dflt := ascii "/metrics" }
  | _, metricsNamespace =>
      { file := root.prometheus.bind (·.metricsNamespace), dflt := ascii "ibmmq" }
  | _, subsystem => { file := root.prometheus.bind (·.subsystem), dflt := [] }
  | _, enableOtel => { file := root.prometheus.bind (·.enableOtel), dflt := false }
  | _, prometheusHost => { file := root.prometheus.bind (·.host), dflt := ascii "0.0.0.0" }
  | _, httpsCertFile => { file := root.prometheus.bind (·.httpsCertFile), dflt := [] }
  | _, httpsKeyFile => { file := root.prometheus.bind (·.httpsKeyFile), dflt := [] }
  | _, overrideCType => { file := root.prometheus.bind (·.overrideCType), dflt := false }
  | _, metaPrefix => { file := root.metadata.bind (·.metaPrefix), dflt := [] }
  | _, metadataTags => { file := root.metadata.bind (·.metadataTags), dflt := [] }
  | _, metadataValues => { file := root.metadata.bind (·.metadataValues), dflt := [] }
  | _, locale => { file := root.metadata.bind (·.locale), dflt := [] }
  | _, logLevel =>
      { commandLine := o.logLevel, file := root.logging.bind (·.level), dflt := ascii "info" }
  | _, logFormat =>
      { commandLine := o.logFormat, file := root.logging.bind (·.format), dflt := ascii "json" }
  | _, outputFile => { file := root.logging.bind (·.outputFile), dflt := [] }
  | _, verbose =>
      { commandLine := given o.verbose, file := root.logging.bind (·.verbose), dflt := false }

/-- What is asked: each setting has the value of the first source that has one. -/
def Precedence (cfg : Config) : Prop :=
  ∀ {α : Type} (s : Setting α), s.used cfg = (s.layers root env o).value

end Sources

/-! ## What the program takes -/

/-- The user name of the file, which `get_user` prefers. -/
def YamlFile.username (root : YamlFile) : Bytes := (root.mq.bind (·.username)).getD []

/-- What `load_config` takes for a setting. -/
def Setting.loaded (root : YamlFile) (env : Environment) (o : Options) :
    {α : Type} → Setting α → α
  | _, .user =>
      if root.username ≠ [] then root.username else (Setting.user.layers root env o).below
  | _, .overrideCType =>
      (Setting.useStatistics.layers root env o).below ||
        (Setting.overrideCType.layers root env o).below
  | _, s => (s.layers root env o).below

/-- What the program takes for a setting. -/
def Setting.taken (root : YamlFile) (env : Environment) (o : Options) :
    {α : Type} → Setting α → α
  | _, .interval =>
      let l := Setting.interval.layers root env o
      if o.interval = some 60 then l.below else l.value
  | _, .maxCycles =>
      let l := Setting.maxCycles.layers root env o
      if o.maxCycles = some 0 then l.below else l.value
  | _, .prometheusPort =>
      let l := Setting.prometheusPort.layers root env o
      if o.prometheusPort = some 9090 then l.below else l.value
  | _, .logLevel =>
      let l := Setting.logLevel.layers root env o
      if o.logLevel = some (ascii "info") then l.below else l.value
  | _, .logFormat =>
      let l := Setting.logFormat.layers root env o
      if o.logFormat = some (ascii "json") then l.below else l.value
  | _, .user => Setting.user.loaded root env o
  | _, .overrideCType => Setting.overrideCType.loaded root env o
  | _, s => (s.layers root env o).value

theorem MQConfig.withConnectionName_eq (mq : MQConfig) :
    mq.withConnectionName = { mq with connectionName := mq.getConnectionName } := by
  unfold MQConfig.withConnectionName MQConfig.getConnectionName
  by_cases hname : mq.connectionName = []
  · by_cases hhost : mq.host ≠ [] ∧ 0 < mq.port
    · rw [if_pos ⟨hname, hhost⟩, if_neg (not_not.mpr hname), if_pos hhost]
    · rw [if_neg fun h => hhost h.2, if_neg (not_not.mpr hname), if_neg hhost, ← hname]
  · rw [if_neg fun h => hname h.1, if_pos hname]

theorem Config.withOverrideCType_eq (cfg : Config) :
    cfg.withOverrideCType =
      { cfg with
        prometheus :=
          { cfg.prometheus with
            overrideCType := cfg.collector.useStatistics || cfg.prometheus.overrideCType } } := by
  unfold Config.withOverrideCType
  cases h : cfg.collector.useStatistics <;> simp

theorem orElse_getEnv (env : Environment) (name : String) (field : Bytes) :
    orElse (getEnv env name) field = (nonEmpty env name).getD field := by
  unfold orElse nonEmpty
  by_cases h : getEnv env name = []
  · rw [if_neg (not_not.mpr h), if_pos h]
    rfl
  · rw [if_pos h, if_neg h]
    rfl

theorem durationOr_eq_ok {node : Option Bytes} {dflt seconds : Int}
    (h : durationOr node dflt dflt = .ok seconds) :
    seconds = (node.bind fun s => durationOf s dflt).getD dflt := by
  cases node with
  | none => exact (Outcome.ok.inj h).symm
  | some s =>
      change parseDuration s dflt = .ok seconds at h
      unfold parseDuration at h
      rw [Option.bind_some]
      cases hs : durationOf s dflt with
      | none =>
          rw [hs] at h
          cases h
      | some n =>
          rw [hs] at h
          exact (Outcome.ok.inj h).symm

theorem below_eq {α : Type} (l : Layers α) : l.below = l.environment.getD (l.file.getD l.dflt) := by
  unfold Layers.below
  cases l.environment <;> rfl

section Loaded

variable {root : YamlFile} {env : Environment} {cfg : Config}

theorem hostAndPort_ne_nil (host : Bytes) (port : Int32) : hostAndPort host port ≠ [] := by
  unfold hostAndPort
  simp [ascii]

/-- A connection name that is complete is found again. -/
theorem getConnectionName_withEnvironment (mq : MQConfig) (env : Environment) :
    (mq.withConnectionName.withEnvironment env).getConnectionName =
      (nonEmpty env "IBMMQ_CONNECTION_NAME").getD mq.getConnectionName := by
  rw [MQConfig.withConnectionName_eq, ← orElse_getEnv]
  unfold MQConfig.withEnvironment
  generalize hname : orElse (getEnv env "IBMMQ_CONNECTION_NAME") mq.getConnectionName = name
  conv_lhs => unfold MQConfig.getConnectionName
  dsimp only
  by_cases hempty : name = []
  · have hderived : mq.getConnectionName = [] := by
      unfold orElse at hname
      split at hname
      · next hset => exact absurd (hname.trans hempty) hset
      · exact hname.trans hempty
    have hhost : ¬ (mq.host ≠ [] ∧ 0 < mq.port) := by
      intro h
      unfold MQConfig.getConnectionName at hderived
      rw [if_pos h] at hderived
      split at hderived
      · next hset => exact hset hderived
      · exact hostAndPort_ne_nil _ _ hderived
    rw [if_neg (not_not.mpr hempty), if_neg hhost, hempty]
  · rw [if_pos hempty]

theorem getUser_withEnvironment (mq : MQConfig) (env : Environment) :
    (mq.withConnectionName.withEnvironment env).getUser =
      if mq.username ≠ [] then mq.username else (nonEmpty env "IBMMQ_USER").getD mq.user := by
  rw [MQConfig.withConnectionName_eq, ← orElse_getEnv]
  rfl

/-- The durations of a section. -/
theorem durations_of_apply {col : CollectorSection} {c : CollectorConfig}
    (h : col.apply {} = .ok c) :
    c.interval = (col.interval.bind fun s => durationOf s 60).getD 60 ∧
    c.reconnectInterval = (col.reconnectInterval.bind fun s => durationOf s 5).getD 5 ∧
    c.rediscoverInterval = (col.rediscoverInterval.bind fun s => durationOf s 0).getD 0 := by
  obtain ⟨interval, hinterval, h⟩ := Outcome.bind_eq_ok.mp h
  obtain ⟨reconnect, hreconnect, h⟩ := Outcome.bind_eq_ok.mp h
  obtain ⟨rediscover, hrediscover, h⟩ := Outcome.bind_eq_ok.mp h
  obtain rfl := Outcome.ok.inj h
  exact ⟨durationOr_eq_ok hinterval, durationOr_eq_ok hreconnect, durationOr_eq_ok hrediscover⟩

theorem useStatistics_of_apply {col : CollectorSection} {c : CollectorConfig}
    (h : col.apply {} = .ok c) : c.useStatistics = col.useStatistics.getD false := by
  obtain ⟨interval, -, h⟩ := Outcome.bind_eq_ok.mp h
  obtain ⟨reconnect, -, h⟩ := Outcome.bind_eq_ok.mp h
  obtain ⟨rediscover, -, h⟩ := Outcome.bind_eq_ok.mp h
  obtain rfl := Outcome.ok.inj h
  rfl

theorem used_loadConfig (h : loadConfig root env = .ok cfg) (o : Options) {α : Type}
    (s : Setting α) : s.used cfg = s.loaded root env o := by
  obtain ⟨applied, happlied, h⟩ := Outcome.bind_eq_ok.mp h
  obtain rfl := Outcome.ok.inj h
  obtain ⟨collector, hcollector, h⟩ := Outcome.bind_eq_ok.mp happlied
  obtain rfl := Outcome.ok.inj h
  rw [Config.withOverrideCType_eq]
  rcases root with ⟨mq, col, prom, metadata, log⟩
  cases s with
  | queueManager | channel | password | keyRepository | cipherSpec =>
      rw [MQConfig.withConnectionName_eq]
      simp only [Setting.used, Setting.loaded, Setting.layers, MQConfig.withEnvironment,
        below_eq, orElse_getEnv]
      cases mq <;> rfl
  | host | mqPort =>
      rw [MQConfig.withConnectionName_eq]
      cases mq <;> rfl
  | connectionName =>
      simp only [Setting.used, Setting.loaded, Setting.layers, below_eq,
        getConnectionName_withEnvironment]
      cases mq <;> rfl
  | user =>
      simp only [Setting.used, Setting.loaded, Setting.layers, below_eq, getUser_withEnvironment]
      cases mq with
      | none => rfl
      | some mq =>
          change (if mq.username.getD [] ≠ [] then _ else _) =
            if mq.username.getD [] ≠ [] then _ else _
          split
          · rfl
          · next hnone =>
              change _ = (nonEmpty env "IBMMQ_USER").getD
                (if mq.username.getD [] ≠ [] then _ else mq.user.getD [])
              rw [if_neg hnone]
              rfl
  | interval | reconnectInterval | rediscoverInterval =>
      cases col with
      | none =>
          obtain rfl := Outcome.ok.inj hcollector
          rfl
      | some col =>
          obtain ⟨hinterval, hreconnect, hrediscover⟩ := durations_of_apply hcollector
          simp only [Setting.used, Setting.loaded, Setting.layers, below_eq, Option.bind_some,
            Option.getD_none, hinterval, hreconnect, hrediscover]
  | statsQueue | accountingQueue | resetStats | maxCycles | continuous | monitorAllQueues
  | queueExclusionPatterns | keepRunning | useStatus | useStatistics | useResetQStats
  | usePublications | monitoredQueues | monitoredChannels | monitoredTopics
  | monitoredSubscriptions | monitoredAmqpChannels | monitoredMqttChannels
  | queueSubscriptionSelector =>
      cases col with
      | none =>
          obtain rfl := Outcome.ok.inj hcollector
          rfl
      | some col =>
          obtain ⟨interval, -, hcollector⟩ := Outcome.bind_eq_ok.mp hcollector
          obtain ⟨reconnect, -, hcollector⟩ := Outcome.bind_eq_ok.mp hcollector
          obtain ⟨rediscover, -, hcollector⟩ := Outcome.bind_eq_ok.mp hcollector
          obtain rfl := Outcome.ok.inj hcollector
          rfl
  | overrideCType =>
      have hstatistics : collector.useStatistics = (col.bind (·.useStatistics)).getD false := by
        cases col with
        | none =>
            obtain rfl := Outcome.ok.inj hcollector
            rfl
        | some col => exact useStatistics_of_apply hcollector
      simp only [Setting.used, Setting.loaded, Setting.layers, below_eq, hstatistics]
      cases prom <;> rfl
  | prometheusPort | path | metricsNamespace | subsystem | enableOtel | prometheusHost
  | httpsCertFile | httpsKeyFile => cases prom <;> rfl
  | metaPrefix | metadataTags | metadataValues | locale => cases metadata <;> rfl
  | logLevel | logFormat | outputFile | verbose => cases log <;> rfl

/-- An option that is told from its default by its value. -/
theorem sentinel_eq {α β : Type} [DecidableEq α] (given : Option α) (sentinel : α) (f : α → β)
    (below : β) :
    (if given.getD sentinel ≠ sentinel then f (given.getD sentinel) else below) =
      if given = some sentinel then below else (given.map f).getD below := by
  cases given with
  | none => simp
  | some v => by_cases hv : v = sentinel <;> simp [hv]

theorem flag_eq (flag below : Bool) :
    (if flag then true else below) = (given flag).getD below := by
  cases flag <;> rfl

/-- What the program takes for each setting. -/
theorem used_runConfig {o : Options} (h : runConfig root env o = .ok cfg) {α : Type}
    (s : Setting α) : s.used cfg = s.taken root env o := by
  obtain ⟨loaded, hloaded, h⟩ := Outcome.bind_eq_ok.mp h
  obtain ⟨-, -, h⟩ := Outcome.bind_eq_ok.mp h
  obtain rfl := Outcome.ok.inj h
  have hused := used_loadConfig hloaded o s
  cases s with
  | interval =>
      change (if o.interval.getD 60 ≠ 60 then (o.interval.getD 60).toInt
        else Setting.interval.used loaded) = _
      rw [sentinel_eq, hused]
      rfl
  | maxCycles =>
      change (if o.maxCycles.getD 0 ≠ 0 then id (o.maxCycles.getD 0)
        else Setting.maxCycles.used loaded) = _
      rw [sentinel_eq, hused, Option.map_id]
      rfl
  | prometheusPort =>
      change (if o.prometheusPort.getD 9090 ≠ 9090 then id (o.prometheusPort.getD 9090)
        else Setting.prometheusPort.used loaded) = _
      rw [sentinel_eq, hused, Option.map_id]
      rfl
  | logLevel =>
      change (if o.logLevel.getD (ascii "info") ≠ ascii "info"
        then id (o.logLevel.getD (ascii "info")) else Setting.logLevel.used loaded) = _
      rw [sentinel_eq, hused, Option.map_id]
      rfl
  | logFormat =>
      change (if o.logFormat.getD (ascii "json") ≠ ascii "json"
        then id (o.logFormat.getD (ascii "json")) else Setting.logFormat.used loaded) = _
      rw [sentinel_eq, hused, Option.map_id]
      rfl
  | continuous =>
      change (if o.continuous then true else Setting.continuous.used loaded) = _
      rw [flag_eq, hused]
      rfl
  | resetStats =>
      change (if o.resetStats then true else Setting.resetStats.used loaded) = _
      rw [flag_eq, hused]
      rfl
  | verbose =>
      change (if o.verbose then true else Setting.verbose.used loaded) = _
      rw [flag_eq, hused]
      rfl
  | _ => exact hused

end Loaded

/-! ## The settings that are taken otherwise -/

/-- The value of the first source, where `use_statistics` turns on `override_c_type`. -/
def Setting.resolved (root : YamlFile) (env : Environment) (o : Options) :
    {α : Type} → Setting α → α
  | _, .overrideCType =>
      (Setting.useStatistics.layers root env o).value ||
        (Setting.overrideCType.layers root env o).value
  | _, s => (s.layers root env o).value

/-- No source is passed over: an option that is given its sentinel changes nothing, and the
user of the environment is not hidden by the file. -/
def Setting.Heeded (root : YamlFile) (env : Environment) (o : Options) :
    {α : Type} → Setting α → Prop
  | _, .interval => o.interval = some 60 → (Setting.interval.layers root env o).below = 60
  | _, .maxCycles => o.maxCycles = some 0 → (Setting.maxCycles.layers root env o).below = 0
  | _, .prometheusPort =>
      o.prometheusPort = some 9090 → (Setting.prometheusPort.layers root env o).below = 9090
  | _, .logLevel =>
      o.logLevel = some (ascii "info") →
        (Setting.logLevel.layers root env o).below = ascii "info"
  | _, .logFormat =>
      o.logFormat = some (ascii "json") →
        (Setting.logFormat.layers root env o).below = ascii "json"
  | _, .user =>
      ∀ u, nonEmpty env "IBMMQ_USER" = some u → root.username ≠ [] → root.username = u
  | _, _ => True

section Masked

variable {root : YamlFile} {env : Environment} {o : Options} {cfg : Config}

/-- An option that is given its default. -/
theorem masked_iff {α β : Type} [DecidableEq α] (option : Option α) (sentinel : α) (f : α → β)
    (below : β) :
    (if option = some sentinel then below else (option.map f).getD below) =
        (option.map f).getD below ↔
      (option = some sentinel → below = f sentinel) := by
  by_cases h : option = some sentinel
  · subst h
    simp
  · simp [h]

theorem masked_self_iff {α : Type} [DecidableEq α] (option : Option α) (sentinel below : α) :
    (if option = some sentinel then below else option.getD below) = option.getD below ↔
      (option = some sentinel → below = sentinel) := by
  simpa using masked_iff option sentinel id below

/-- The user of the environment and the user names of the file. -/
theorem loaded_user_iff :
    Setting.user.loaded root env o = (Setting.user.layers root env o).value ↔
      ∀ u, nonEmpty env "IBMMQ_USER" = some u → root.username ≠ [] → root.username = u := by
  have hvalue : (Setting.user.layers root env o).value =
      (nonEmpty env "IBMMQ_USER").getD
        ((root.mq.map fun mq => (mq.apply {}).getUser).getD []) := below_eq _
  by_cases hname : root.username = []
  · have hloaded : Setting.user.loaded root env o = (Setting.user.layers root env o).value :=
      if_neg (not_not.mpr hname)
    exact iff_of_true hloaded fun u _ h => absurd hname h
  · have hloaded : Setting.user.loaded root env o = root.username := if_pos hname
    have hfile : (root.mq.map fun mq => (mq.apply {}).getUser).getD [] = root.username := by
      unfold YamlFile.username at hname ⊢
      cases hmq : root.mq with
      | none =>
          rw [hmq] at hname
          exact absurd rfl hname
      | some mq =>
          rw [hmq] at hname
          exact if_pos hname
    rw [hloaded, hvalue, hfile]
    cases henv : nonEmpty env "IBMMQ_USER" with
    | none => simp
    | some u => simp [hname]

/-- A setting has its resolved value if and only if no source of it is passed over. -/
theorem used_eq_resolved_iff (h : runConfig root env o = .ok cfg) {α : Type} (s : Setting α) :
    s.used cfg = s.resolved root env o ↔ s.Heeded root env o := by
  rw [used_runConfig h s]
  cases s with
  | interval => exact masked_iff o.interval 60 Int32.toInt _
  | maxCycles => exact masked_self_iff o.maxCycles 0 _
  | prometheusPort => exact masked_self_iff o.prometheusPort 9090 _
  | logLevel => exact masked_self_iff o.logLevel (ascii "info") _
  | logFormat => exact masked_self_iff o.logFormat (ascii "json") _
  | user => exact loaded_user_iff
  | _ => exact iff_of_true rfl trivial

/-- Every setting is taken from its first source, unless a source of it is passed over. -/
theorem used_eq_resolved (h : runConfig root env o = .ok cfg) :
    ∀ {α : Type} (s : Setting α), s.Heeded root env o → s.used cfg = s.resolved root env o :=
  fun s => (used_eq_resolved_iff h s).mpr

end Masked

/-! ## Two starts of the program -/

/-- A file with the name of the queue manager. -/
def namedFile : YamlFile := { mq := some { queueManager := some (ascii "QM1") } }

/-- The file with `use_statistics` on and `override_c_type` off. -/
def statisticsFile : YamlFile :=
  { namedFile with
    collector := some { useStatistics := some true }
    prometheus := some { overrideCType := some false } }

/-- The user is set. -/
def userEnvironment : Environment := fun name =>
  if name = "IBMMQ_USER" then some (ascii "mqapp") else none

/-- What the program goes on with. -/
def namedConfig : Config :=
  { mq := { queueManager := ascii "QM1", user := ascii "mqapp" }, prometheus := { port := 9157 } }

theorem used_eq_resolved_namedFile :
    Setting.user.used namedConfig =
      Setting.user.resolved namedFile userEnvironment { prometheusPort := some 9157 } ∧
    Setting.user.used namedConfig = ascii "mqapp" := by
  have hrun : runConfig namedFile userEnvironment { prometheusPort := some 9157 } =
      .ok namedConfig := by decide +kernel
  exact ⟨used_eq_resolved hrun .user fun _ _ h => absurd rfl h, rfl⟩

/-- An `override_c_type` that is off in the file is turned on. -/
theorem not_precedence :
    ¬ ∀ (root : YamlFile) (env : Environment) (o : Options) (cfg : Config),
      runConfig root env o = .ok cfg → Precedence root env o cfg := by
  intro h
  have hrun : runConfig statisticsFile (fun _ => none) {} =
      .ok {
        mq := { queueManager := ascii "QM1" }
        collector := { useStatistics := true }
        prometheus := { overrideCType := true } } := by decide +kernel
  have hoverride := h _ _ _ _ hrun .overrideCType
  exact absurd hoverride (by decide)

end IbmmqExporter.Configuration
