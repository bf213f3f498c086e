/-
  Monitor/ResourceMonitor.lean --- `ResourceMonitor` of `resource_monitor.cpp`.

  The monitor finds out from metadata publications which classes of numbers the
  queue manager publishes, subscribes to their topics, and turns what is published
  into samples.  It owns the subscriptions it makes; the client it makes them with
  does not know of them.  Numbers of type `double` are the rationals they stand for.
-/
import Mathlib.Data.Finmap
import IbmmqExporter.Foundation.Double
import IbmmqExporter.Monitor.Params
import IbmmqExporter.Mq.Client

set_option autoImplicit false

namespace IbmmqExporter.Monitor

open Foundation Pcf Mq

/-! ## Data -/

/-- `MonitorElement`. -/
structure MonitorElement where
  elementId : Int32 := 0
  datatype : Int32 := 0
  description : Bytes := []
  metricName : Bytes := []
  deriving DecidableEq, Repr

/-- `MonitorType`. -/
structure MonitorType where
  typeId : Int32 := 0
  typeName : Bytes := []
  objectTopic : Bytes := []
  elements : List MonitorElement := []
  deriving DecidableEq, Repr

/-- `MonitorClass`. -/
structure MonitorClass where
  classId : Int32 := 0
  className : Bytes := []
  topicString : Bytes := []
  types : List MonitorType := []
  deriving DecidableEq, Repr

/-- `PublicationMetric`. -/
structure PublicationMetric where
  className : Bytes
  typeName : Bytes
  objectName : Bytes
  metricName : Bytes
  value : ℚ
  isDelta : Bool
  deriving DecidableEq, Repr

/-- `ResourceMonitor::DataSub`. -/
structure DataSub where
  className : Bytes
  typeName : Bytes
  handles : SubHandle
  deriving DecidableEq, Repr

/-- The elements of a type by their identifiers. -/
abbrev ElementMap : Type := Finmap fun _ : Int32 => MonitorElement

/-- The fields of `ResourceMonitor`, but for the client. -/
structure ResourceMonitor where
  qmgrName : Bytes := []
  classes : List MonitorClass := []
  typeElements : Finmap (fun _ : Bytes => ElementMap) := ∅
  dataSubs : List DataSub := []

/-- The monitor and the client it uses. -/
structure World where
  session : Session := {}
  monitor : ResourceMonitor := {}

/-- A method of `ResourceMonitor`. -/
abbrev Program (α : Type) : Type := Effect World StdException α

/-- A method of the client. -/
def session {α : Type} (c : Method α) : Program α :=
  Effect.zoom World.session (fun s w => { w with session := s }) c

/-- A field of the monitor. -/
def monitor {α : Type} (f : ResourceMonitor → α) : Program α := Effect.gets fun w => f w.monitor

/-- Assign fields of the monitor. -/
def assign (f : ResourceMonitor → ResourceMonitor) : Program Unit :=
  Effect.modify fun w => { w with monitor := f w.monitor }

/-! ## Constants -/

def unit : Int32 := 1
def delta : Int32 := 2
def hundredths : Int32 := 100
def percent : Int32 := 10000
def microsec : Int32 := 1000000

def mqiamoMonitorClass : Int32 := 839
def mqiamoMonitorType : Int32 := 840
def mqiamoMonitorElement : Int32 := 841
def mqiamoMonitorDatatype : Int32 := 842
def mqcamoMonitorClass : Int32 := 2713
def mqcamoMonitorType : Int32 := 2714
def mqcamoMonitorDesc : Int32 := 2715
def mqcaTopicString : Int32 := 2094
def mqcaQName : Int32 := 2016

/-- `PCF_HEADER_SIZE`. -/
def pcfHeaderSize : Nat := 36

/-! ## Names and values -/

/-- `std::isalnum` in the C locale. -/
def isAlnum (c : UInt8) : Bool :=
  (48 ≤ c ∧ c ≤ 57) ∨ (65 ≤ c ∧ c ≤ 90) ∨ (97 ≤ c ∧ c ≤ 122)

/-- `std::tolower` in the C locale. -/
def toLower (c : UInt8) : UInt8 := if 65 ≤ c ∧ c ≤ 90 then c + 32 else c

/-- The characters of a description that part its words. -/
def isSeparator (c : UInt8) : Bool := c ∈ ascii " -/()"

/-- The loop of `description_to_metric_name`: `result` and `prev_underscore` so
far. -/
def metricNameFrom (result : Bytes) (prevUnderscore : Bool) : Bytes → Bytes
  | [] => result
  | c :: desc =>
      if isSeparator c then
        if result ≠ [] ∧ ¬ prevUnderscore then metricNameFrom (result ++ ascii "_") true desc
        else metricNameFrom result prevUnderscore desc
      else if isAlnum c then metricNameFrom (result ++ [toLower c]) false desc
      else metricNameFrom result prevUnderscore desc

/-- `ResourceMonitor::description_to_metric_name`. -/
def descriptionToMetricName (desc : Bytes) : Bytes :=
  let result := metricNameFrom [] false desc
  if result.getLast? = (ascii "_").head? then result.dropLast else result

/-- `ResourceMonitor::normalize_value`. -/
def normalizeValue (raw : Int64) (datatype : Int32) : ℚ :=
  let val := toDouble raw.toInt
  if datatype = hundredths then toDouble (val / 100)
  else if datatype = percent then toDouble (val / 100)
  else if datatype = microsec then toDouble (val / 1000000)
  else val

/-- What a number of the datatype is divided by. -/
def unitOf (datatype : Int32) : ℚ :=
  if datatype = hundredths then 100
  else if datatype = percent then 100
  else if datatype = microsec then 1000000
  else 1

/-- A number that fits into a `double` is rounded no more than once. -/
theorem normalizeValue_eq {raw : Int64} (h : |raw.toInt| ≤ 2 ^ 53) (datatype : Int32) :
    normalizeValue raw datatype = toDouble (raw.toInt / unitOf datatype) := by
  unfold normalizeValue unitOf
  dsimp only
  rw [toDouble_intCast h]
  split
  · rfl
  · split
    · rfl
    · split
      · rfl
      · rw [div_one, toDouble_intCast h]

/-- Such a number is at most half of the last bit of the quotient away from it. -/
theorem abs_normalizeValue_sub_le {raw : Int64} (h : |raw.toInt| ≤ 2 ^ 53) (datatype : Int32) :
    |normalizeValue raw datatype - raw.toInt / unitOf datatype| ≤
      lastBit (raw.toInt / unitOf datatype) / 2 := by
  rw [normalizeValue_eq h]
  exact abs_toDouble_sub_le _

/-- `find("%s")`: what stands before and behind the first `%s`. -/
def splitAtObject : Bytes → Option (Bytes × Bytes)
  | [] => none
  | c :: topic =>
      if (ascii "%s").isPrefixOf (c :: topic) then some ([], topic.drop 1)
      else (splitAtObject topic).map fun parts => (c :: parts.1, parts.2)

/-! ## Discovery -/

/-- The choice of `params_offset`: the header's `StrucLength` where it is at least
`least`. -/
def paramsOffset (least : Int) (data : Bytes) : Nat :=
  let cfhStrucLength := intAt data 4
  if least ≤ cfhStrucLength ∧ cfhStrucLength.toNat ≤ data.length then cfhStrucLength.toNat
  else pcfHeaderSize

/-- The parameters behind the header of a metadata message or publication. -/
def paramsBehind (least : Int) (data : Bytes) : Parse (List PCFParam) :=
  parsePcfParams (data.drop (paramsOffset least data))

/-- The parameters of the metadata message on a topic; `none` if there is no message
or it is shorter than a header. -/
def metadata (least : Int) (topic : Bytes) : Program (Option (List PCFParam)) := do
  let msg ← session (subscribeAndGet topic)
  match msg with
  | none => return none
  | some msg =>
      if msg.data.length < pcfHeaderSize then return none
      else some <$> Effect.lift (paramsBehind least msg.data)

/-- An element from the parameters of its group. -/
def elementOf (group : List PCFParam) : MonitorElement :=
  group.foldl (fun elem gp =>
    if gp.paramId = mqiamoMonitorElement then { elem with elementId := gp.intValue }
    else if gp.paramId = mqiamoMonitorDatatype then { elem with datatype := gp.intValue }
    else if gp.paramId = mqcamoMonitorDesc then { elem with description := gp.strValue }
    else elem) {}

/-- The loop of `discover_elements` over the parameters. -/
def addElements (mtype : MonitorType) (params : List PCFParam) : MonitorType :=
  params.foldl (fun mtype p =>
    if p.type = mqcftString ∧ p.paramId = mqcaTopicString then
      { mtype with objectTopic := p.strValue }
    else if p.type ≠ mqcftGroup then mtype
    else
      let elem := elementOf p.groupParams
      if elem.elementId = 0 then mtype
      else
        { mtype with
          elements := mtype.elements ++
            [{ elem with metricName := descriptionToMetricName elem.description }] }) mtype

/-- `ResourceMonitor::discover_elements`; it returns the type. -/
def discoverElements (mtype : MonitorType) (elementsTopic : Bytes) : Program MonitorType := do
  let params ← metadata 1 elementsTopic
  match params with
  | none => return mtype
  | some params => return addElements mtype params

/-- A type and the topic of its elements, from the parameters of its group. -/
def typeOf (group : List PCFParam) : MonitorType × Bytes :=
  group.foldl (fun t gp =>
    if gp.paramId = mqiamoMonitorType then ({ t.1 with typeId := gp.intValue }, t.2)
    else if gp.paramId = mqcamoMonitorType then ({ t.1 with typeName := gp.strValue }, t.2)
    else if gp.paramId = mqcaTopicString then (t.1, gp.strValue)
    else t) ({}, [])

/-- The loop of `discover_types` over the parameters. -/
def addTypes : List PCFParam → MonitorClass → Program MonitorClass
  | [], cls => return cls
  | p :: params, cls =>
      if p.type ≠ mqcftGroup then addTypes params cls
      else
        let (mtype, elementsTopic) := typeOf p.groupParams
        if mtype.typeName = [] ∨ elementsTopic = [] then addTypes params cls
        else do
          let mtype ← discoverElements mtype elementsTopic
          addTypes params
            (if mtype.elements = [] then cls else { cls with types := cls.types ++ [mtype] })

/-- `ResourceMonitor::discover_types`; it returns the class if it has types. -/
def discoverTypes (cls : MonitorClass) : Program (Option MonitorClass) := do
  if cls.topicString = [] then return none
  else
    let params ← metadata 1 cls.topicString
    match params with
    | none => return none
    | some params =>
        let cls ← addTypes params cls
        return if cls.types = [] then none else some cls

/-- A class from the parameters of its group. -/
def classOf (group : List PCFParam) : MonitorClass :=
  group.foldl (fun cls gp =>
    if gp.paramId = mqiamoMonitorClass then { cls with classId := gp.intValue }
    else if gp.paramId = mqcamoMonitorClass then { cls with className := gp.strValue }
    else if gp.paramId = mqcaTopicString then { cls with topicString := gp.strValue }
    else cls) {}

/-- The loop of `discover_classes` over the parameters. -/
def addClasses : List PCFParam → Program Unit
  | [] => return
  | p :: params =>
      if p.type ≠ mqcftGroup then addClasses params
      else
        let cls := classOf p.groupParams
        if cls.className = [] then addClasses params
        else do
          let found ← discoverTypes cls
          match found with
          | none => addClasses params
          | some cls => do
              assign fun m => { m with classes := m.classes ++ [cls] }
              addClasses params

/-- `ResourceMonitor::discover_classes`. -/
def discoverClasses : Program Bool := do
  let qmgrName ← monitor ResourceMonitor.qmgrName
  let params ← metadata 36
    (ascii "$SYS/MQ/INFO/QMGR/" ++ qmgrName ++ ascii "/Monitor/METADATA/CLASSES")
  match params with
  | none => return false
  | some params =>
      addClasses params
      let classes ← monitor ResourceMonitor.classes
      return decide (classes ≠ [])

/-- The key of a type in `type_elements_`. -/
def typeKey (className typeName : Bytes) : Bytes := className ++ ascii "/" ++ typeName

/-- The element maps that `discover` builds of the classes. -/
def addTypeElements (typeElements : Finmap fun _ : Bytes => ElementMap)
    (classes : List MonitorClass) : Finmap fun _ : Bytes => ElementMap :=
  classes.foldl (fun elems cls =>
    cls.types.foldl (fun elems t =>
      let key := typeKey cls.className t.typeName
      elems.insert key
        (t.elements.foldl (fun emap e => emap.insert e.elementId e)
          ((elems.lookup key).getD ∅))) elems) typeElements

/-- `ResourceMonitor::discover`. -/
def discover : Program Bool := do
  let found ← discoverClasses
  if ¬ found then return false
  else
    assign fun m => { m with typeElements := addTypeElements m.typeElements m.classes }
    return true

/-! ## Subscriptions -/

/-- The topics to which `create_subscriptions` subscribes for a type: one for each
queue if the type's topic has a place for the queue, and else one. -/
def typeTopics (queues : List Bytes) (objectTopic : Bytes) : List Bytes :=
  if objectTopic = [] then []
  else
    match splitAtObject objectTopic with
    | none => [objectTopic]
    | some (before, behind) => queues.map fun q => before ++ q ++ behind

/-- The subscriptions that `create_subscriptions` tries to make: class, type and
topic. -/
def wantedTopics (queues : List Bytes) (classes : List MonitorClass) :
    List (Bytes × Bytes × Bytes) :=
  classes.flatMap fun cls =>
    if cls.className = ascii "STATAPP" then []
    else
      cls.types.flatMap fun t =>
        (typeTopics queues t.objectTopic).map fun topic => (cls.className, t.typeName, topic)

/-- The body of the loops of `create_subscriptions`. -/
def subscribeData (className typeName topic : Bytes) : Program Unit := do
  let sub ← session (createSubscription topic)
  match sub with
  | none => return
  | some handles =>
      assign fun m => { m with dataSubs := m.dataSubs ++ [{ className, typeName, handles }] }

/-- `ResourceMonitor::create_subscriptions`; what it returns says whether it has made
any. -/
def createSubscriptions (queues : List Bytes) : Program Bool := do
  let classes ← monitor ResourceMonitor.classes
  if classes = [] then return false
  else
    let before ← monitor fun m => m.dataSubs.length
    Effect.forEach (wantedTopics queues classes) fun t => subscribeData t.1 t.2.1 t.2.2
    let behind ← monitor fun m => m.dataSubs.length
    return decide (before < behind)

/-! ## Publications -/

/-- The queue name of a publication: the last parameter that gives one. -/
def publishedQueue (params : List PCFParam) : Bytes :=
  params.foldl (fun name p => if p.paramId = mqcaQName then p.strValue else name) []

/-- The samples of a publication. -/
def publishedMetrics (sub : DataSub) (emap : ElementMap) (params : List PCFParam) :
    List PublicationMetric :=
  params.filterMap fun p =>
    if p.type ≠ mqcftInteger64 ∧ p.type ≠ mqcftInteger then none
    else
      (emap.lookup p.paramId).map fun elem =>
        { className := sub.className, typeName := sub.typeName,
          objectName := publishedQueue params, metricName := elem.metricName,
          value := normalizeValue p.int64Value elem.datatype,
          isDelta := decide (elem.datatype = delta) }

/-- The samples of the messages of one subscription. -/
def messageMetrics (sub : DataSub) (emap : ElementMap) :
    List MQMessage → Parse (List PublicationMetric)
  | [] => return []
  | msg :: messages => do
      let here ←
        (if msg.data.length < pcfHeaderSize then return []
        else publishedMetrics sub emap <$> paramsBehind 1 msg.data)
      let rest ← messageMetrics sub emap messages
      return here ++ rest

/-- The loop of `process_publications`. -/
def publicationsOf : List DataSub → List PublicationMetric → Program (List PublicationMetric)
  | [], metrics => return metrics
  | sub :: subs, metrics => do
      let messages ← session (getMessagesFromHandle sub.handles.hobj 500)
      let typeElements ← monitor ResourceMonitor.typeElements
      match typeElements.lookup (typeKey sub.className sub.typeName) with
      | none => publicationsOf subs metrics
      | some emap =>
          let found ← Effect.lift (messageMetrics sub emap messages)
          publicationsOf subs (metrics ++ found)

/-- `ResourceMonitor::process_publications`. -/
def processPublications : Program (List PublicationMetric) := do
  let subs ← monitor ResourceMonitor.dataSubs
  publicationsOf subs []

/-- `ResourceMonitor::close`, which the destructor calls too. -/
def close : Program Unit := do
  let subs ← monitor ResourceMonitor.dataSubs
  Effect.forEach subs fun sub => session (closeSubscription sub.handles)
  assign fun m => { m with dataSubs := [], typeElements := ∅, classes := [] }

end IbmmqExporter.Monitor
