/-
  Monitor/Metadata.lean --- the metadata that the queue manager answers.

  The metadata are a tree.  The message on the topic of the classes has a group for
  each class; the message on the topic that this group names has a group for each type
  of the class; and the message on the topic of a type has a group for each element.
  Between the groups may stand other parameters, and a group may have more members than
  the monitor looks at.

  WHAT THE FILE PROVES.  If the metadata topics are answered with the messages of a
  tree, `discover` builds the classes, types and elements of the tree, less the elements
  whose identifier is zero, the types without elements and the classes without types.
-/
import IbmmqExporter.Foundation.Intern
import IbmmqExporter.Monitor.ResourceMonitor
import IbmmqExporter.Monitor.Stream

set_option autoImplicit false

namespace IbmmqExporter.Monitor

open Foundation Pcf Mq

/-! ## Messages -/

/-- A PCF message: a header of 36 bytes and a stream of parameters. -/
structure PcfMessage where
  hdr : PCFHeader
  entries : List Entry
  strucLength_eq : hdr.strucLength = 36

namespace PcfMessage

/-- The bytes of the message. -/
def bytes (m : PcfMessage) : Bytes := m.hdr.encode ++ m.entries.flatMap Entry.encode

/-- The parameters of the message. -/
def params (m : PcfMessage) : List PCFParam := m.entries.map Entry.param

theorem pcfHeaderSize_le (m : PcfMessage) : ¬ m.bytes.length < pcfHeaderSize := by
  unfold bytes pcfHeaderSize
  rw [List.length_append, PCFHeader.length_encode]
  omega

/-- The monitor finds the parameters behind the header. -/
theorem paramsBehind_bytes (m : PcfMessage) {least : Int} (hleast : least ≤ 36) :
    paramsBehind least m.bytes = .ok m.params := by
  have hstruc : intAt m.bytes 4 = 36 := by
    have h0 : m.bytes.drop 0 = m.bytes := rfl
    unfold bytes PCFHeader.encode at h0 ⊢
    simp only [List.append_assoc] at h0 ⊢
    rw [intAt_peel (drop_peel_int32 h0), m.strucLength_eq]
    rfl
  have hlen := m.pcfHeaderSize_le
  unfold pcfHeaderSize at hlen
  have hoffset : paramsOffset least m.bytes = 36 := by
    unfold paramsOffset
    dsimp only
    rw [hstruc, if_pos ⟨hleast, by omega⟩]
    rfl
  have hdrop : m.bytes.drop 36 = m.entries.flatMap Entry.encode := by
    unfold bytes
    exact List.drop_left' (PCFHeader.length_encode m.hdr)
  unfold paramsBehind
  rw [hoffset, hdrop, parsePcfParams_entries]
  rfl

end PcfMessage

/-! ## Groups -/

/-- A group of a metadata message. -/
structure Group where
  groupId : Int32
  members : List Cell
  short : members.length < 2 ^ 31

/-- The group as a parameter of the stream. -/
def Group.entry (g : Group) : Entry := .group g.groupId g.members g.short

/-- The members as they are decoded. -/
def Group.params (g : Group) : List PCFParam := g.members.map Cell.param

/-- The number under an id; of several members with the id the last counts. -/
def intUnder (id : Int32) (params : List PCFParam) : Int32 :=
  params.foldl (fun v p => if p.paramId = id then p.intValue else v) 0

/-- The text under an id; of several members with the id the last counts. -/
def textUnder (id : Int32) (params : List PCFParam) : Bytes :=
  params.foldl (fun v p => if p.paramId = id then p.strValue else v) []

/-- The parameters of a message: groups that describe something, and others. -/
abbrev Described (N : Type) : Type := List (Cell ⊕ N)

/-- What is described. -/
def Described.nodes {N : Type} (items : Described N) : List N := items.filterMap Sum.getRight?

@[simp] theorem Described.nodes_nil {N : Type} : Described.nodes ([] : Described N) = [] := rfl

@[simp] theorem Described.nodes_inl {N : Type} (c : Cell) (items : Described N) :
    Described.nodes (Sum.inl c :: items) = items.nodes := rfl

@[simp] theorem Described.nodes_inr {N : Type} (n : N) (items : Described N) :
    Described.nodes (Sum.inr n :: items) = n :: items.nodes := rfl

/-- The parameters as a stream. -/
def Described.entries {N : Type} (group : N → Group) (items : Described N) : List Entry :=
  items.map (Sum.elim Entry.leaf fun n => (group n).entry)

/-! ## The tree -/

/-- `MQIAMO_MONITOR_ELEMENT` of an element group. -/
def Group.elementId (g : Group) : Int32 := intUnder mqiamoMonitorElement g.params

/-- The element that a group describes. -/
def Group.element (g : Group) : MonitorElement where
  elementId := g.elementId
  datatype := intUnder mqiamoMonitorDatatype g.params
  description := textUnder mqcamoMonitorDesc g.params
  metricName := descriptionToMetricName (textUnder mqcamoMonitorDesc g.params)

/-- A type: its group, and the message about its elements. -/
structure TypeNode extends Group where
  hdr : PCFHeader
  strucLength_eq : hdr.strucLength = 36
  items : Described Group

/-- A class: its group, and the message about its types. -/
structure ClassNode extends Group where
  hdr : PCFHeader
  strucLength_eq : hdr.strucLength = 36
  items : Described TypeNode

/-- The metadata: the message about the classes. -/
structure Metadata where
  hdr : PCFHeader
  strucLength_eq : hdr.strucLength = 36
  items : Described ClassNode

namespace TypeNode

def name (t : TypeNode) : Bytes := textUnder mqcamoMonitorType t.params

def topic (t : TypeNode) : Bytes := textUnder mqcaTopicString t.params

/-- The message about the elements of the type. -/
def message (t : TypeNode) : PcfMessage where
  hdr := t.hdr
  entries := t.items.entries id
  strucLength_eq := t.strucLength_eq

/-- The element groups of the type. -/
def elements (t : TypeNode) : List Group := t.items.nodes

end TypeNode

namespace ClassNode

def name (c : ClassNode) : Bytes := textUnder mqcamoMonitorClass c.params

def topic (c : ClassNode) : Bytes := textUnder mqcaTopicString c.params

/-- The message about the types of the class. -/
def message (c : ClassNode) : PcfMessage where
  hdr := c.hdr
  entries := c.items.entries TypeNode.toGroup
  strucLength_eq := c.strucLength_eq

def types (c : ClassNode) : List TypeNode := c.items.nodes

end ClassNode

namespace Metadata

/-- The message about the classes. -/
def message (tree : Metadata) : PcfMessage where
  hdr := tree.hdr
  entries := tree.items.entries ClassNode.toGroup
  strucLength_eq := tree.strucLength_eq

def classes (tree : Metadata) : List ClassNode := tree.items.nodes

end Metadata

/-! ## Questions and answers -/

/-- Metadata topics that are asked about one after the other are answered with the
messages. -/
inductive Answers : List (Bytes × PcfMessage) → Session → Session → Prop where
  | nil (s : Session) : Answers [] s s
  | cons {topic : Bytes} {m : PcfMessage} {msg : MQMessage} {s s' s'' : Session}
      {rest : List (Bytes × PcfMessage)}
      (answer : subscribeAndGet topic s = (.ok (some msg), s')) (data : msg.data = m.bytes)
      (behind : Answers rest s' s'') : Answers ((topic, m) :: rest) s s''

theorem Answers.append_inv {xs ys : List (Bytes × PcfMessage)} {s s'' : Session}
    (h : Answers (xs ++ ys) s s'') : ∃ s', Answers xs s s' ∧ Answers ys s' s'' := by
  induction xs generalizing s with
  | nil => exact ⟨s, .nil s, h⟩
  | cons x xs ih =>
      cases h with
      | cons answer data behind =>
          obtain ⟨s', hxs, hys⟩ := ih behind
          exact ⟨s', .cons answer data hxs, hys⟩

/-- What is asked about a type, and the answer. -/
def TypeNode.exchange (t : TypeNode) : List (Bytes × PcfMessage) := [(t.topic, t.message)]

/-- What is asked about a class, with the answers. -/
def ClassNode.exchange (c : ClassNode) : List (Bytes × PcfMessage) :=
  (c.topic, c.message) :: c.types.flatMap TypeNode.exchange

/-- The topic of the classes. -/
def classesTopic (qmgrName : Bytes) : Bytes :=
  ascii "$SYS/MQ/INFO/QMGR/" ++ qmgrName ++ ascii "/Monitor/METADATA/CLASSES"

/-- What `discover` asks, with the answers. -/
def Metadata.exchange (qmgrName : Bytes) (tree : Metadata) : List (Bytes × PcfMessage) :=
  (classesTopic qmgrName, tree.message) :: tree.classes.flatMap ClassNode.exchange

/-! ## Reading the groups -/

/-- A loop that looks for three ids and sets a field for each of them. -/
theorem foldl_fields {σ α β γ : Type} (m : α → β → γ → σ) {a b c : Int32}
    (f : PCFParam → α) (g : PCFParam → β) (h : PCFParam → γ) {step : σ → PCFParam → σ}
    (hab : a ≠ b) (hac : a ≠ c) (hbc : b ≠ c)
    (hstep : ∀ x y z p, step (m x y z) p =
      if p.paramId = a then m (f p) y z
      else if p.paramId = b then m x (g p) z
      else if p.paramId = c then m x y (h p)
      else m x y z) (params : List PCFParam) (x : α) (y : β) (z : γ) :
    params.foldl step (m x y z) =
      m (params.foldl (fun v p => if p.paramId = a then f p else v) x)
        (params.foldl (fun v p => if p.paramId = b then g p else v) y)
        (params.foldl (fun v p => if p.paramId = c then h p else v) z) := by
  induction params generalizing x y z with
  | nil => rfl
  | cons p params ih =>
      simp only [List.foldl_cons]
      rw [hstep]
      split
      · next ha => rw [ha, if_neg hab, if_neg hac, ih]
      · split
        · next hb => rw [hb, if_neg hbc, ih]
        · split
          · exact ih x y (h p)
          · exact ih x y z

theorem elementOf_eq (params : List PCFParam) :
    elementOf params =
      { elementId := intUnder mqiamoMonitorElement params
        datatype := intUnder mqiamoMonitorDatatype params
        description := textUnder mqcamoMonitorDesc params } := by
  refine foldl_fields (a := mqiamoMonitorElement) (b := mqiamoMonitorDatatype)
    (c := mqcamoMonitorDesc)
    (fun elementId datatype description => ({ elementId, datatype, description } : MonitorElement))
    PCFParam.intValue PCFParam.intValue PCFParam.strValue ?_ ?_ ?_ ?_ params 0 0 []
  · decide
  · decide
  · decide
  · exact fun _ _ _ _ => rfl

theorem typeOf_eq (params : List PCFParam) :
    typeOf params =
      ({ typeId := intUnder mqiamoMonitorType params
         typeName := textUnder mqcamoMonitorType params },
       textUnder mqcaTopicString params) := by
  refine foldl_fields (a := mqiamoMonitorType) (b := mqcamoMonitorType) (c := mqcaTopicString)
    (fun typeId typeName topic => (({ typeId, typeName } : MonitorType), topic))
    PCFParam.intValue PCFParam.strValue PCFParam.strValue ?_ ?_ ?_ ?_ params 0 [] []
  · decide
  · decide
  · decide
  · exact fun _ _ _ _ => rfl

theorem classOf_eq (params : List PCFParam) :
    classOf params =
      { classId := intUnder mqiamoMonitorClass params
        className := textUnder mqcamoMonitorClass params
        topicString := textUnder mqcaTopicString params } := by
  refine foldl_fields (a := mqiamoMonitorClass) (b := mqcamoMonitorClass) (c := mqcaTopicString)
    (fun classId className topicString => ({ classId, className, topicString } : MonitorClass))
    PCFParam.intValue PCFParam.strValue PCFParam.strValue ?_ ?_ ?_ ?_ params 0 [] []
  · decide
  · decide
  · decide
  · exact fun _ _ _ _ => rfl

/-! ## What is discovered -/

/-- The topic of the data: the last text of the message that is a topic. -/
def objectTopicOf (params : List PCFParam) : Bytes :=
  params.foldl (fun v p => if p.type = mqcftString ∧ p.paramId = mqcaTopicString then p.strValue
    else v) []

/-- The elements of a type that are kept. -/
def TypeNode.kept (t : TypeNode) : List MonitorElement :=
  (t.elements.map Group.element).filter fun e => e.elementId ≠ 0

/-- The type as the monitor keeps it. -/
def TypeNode.monitorType (t : TypeNode) : MonitorType where
  typeId := intUnder mqiamoMonitorType t.params
  typeName := t.name
  objectTopic := objectTopicOf t.message.params
  elements := t.kept

/-- The types of a class that are kept. -/
def ClassNode.kept (c : ClassNode) : List MonitorType :=
  (c.types.map TypeNode.monitorType).filter fun t => t.elements ≠ []

/-- The class as the monitor keeps it. -/
def ClassNode.monitorClass (c : ClassNode) : MonitorClass where
  classId := intUnder mqiamoMonitorClass c.params
  className := c.name
  topicString := c.topic
  types := c.kept

/-- The classes that are kept. -/
def Metadata.kept (tree : Metadata) : List MonitorClass :=
  (tree.classes.map ClassNode.monitorClass).filter fun c => c.types ≠ []

/-- The parameters of a described message, one after the other. -/
theorem params_entries {N : Type} (group : N → Group) (items : Described N) :
    (items.entries group).map Entry.param =
      items.map (Sum.elim Cell.param fun n => (group n).entry.param) := by
  unfold Described.entries
  rw [List.map_map]
  apply List.map_congr_left
  rintro (c | n) _ <;> rfl

theorem addElements_entries (items : Described Group) (mtype : MonitorType) :
    addElements mtype ((items.entries id).map Entry.param) =
      { mtype with
        objectTopic := ((items.entries id).map Entry.param).foldl (fun v p =>
          if p.type = mqcftString ∧ p.paramId = mqcaTopicString then p.strValue else v)
          mtype.objectTopic
        elements := mtype.elements ++
          (items.nodes.map Group.element).filter fun e => e.elementId ≠ 0 } := by
  rw [params_entries]
  unfold addElements
  induction items generalizing mtype with
  | nil => simp
  | cons item items ih =>
      rw [List.map_cons, List.foldl_cons, List.foldl_cons, ih]
      cases item with
      | inl c =>
          rw [Sum.elim_inl, Described.nodes_inl]
          by_cases htopic : c.param.type = mqcftString ∧ c.param.paramId = mqcaTopicString
          · rw [if_pos htopic, if_pos htopic]
          · rw [if_neg htopic, if_neg htopic, if_pos (by rw [c.param_type]; exact c.type_ne)]
      | inr g =>
          have htype : g.entry.param.type = mqcftGroup := rfl
          have hgroup : ¬ (g.entry.param.type = mqcftString ∧
              g.entry.param.paramId = mqcaTopicString) := by
            rw [htype]
            exact fun h => absurd h.1 (by decide)
          have helem : elementOf g.entry.param.groupParams =
              { g.element with metricName := [] } := elementOf_eq g.params
          rw [Sum.elim_inr, id_eq, if_neg hgroup, if_neg hgroup, if_neg (not_not.mpr htype),
            Described.nodes_inr, List.map_cons]
          dsimp only
          rw [helem]
          by_cases hzero : g.element.elementId = 0
          · rw [if_pos hzero, List.filter_cons_of_neg (by simpa using hzero)]
          · rw [if_neg hzero, List.filter_cons_of_pos (by simpa using hzero), List.append_assoc]
            rfl

/-- `discover_elements` builds the type. -/
theorem addElements_node (t : TypeNode) :
    addElements
        { typeId := intUnder mqiamoMonitorType t.params, typeName := t.name } t.message.params =
      t.monitorType := addElements_entries t.items _

/-! ## Discovery -/

section Discovery

variable {s s' : Session} {monitor : ResourceMonitor}

theorem monitor_bind {α β : Type} (f : ResourceMonitor → α) (k : α → Program β) (w : World) :
    (Monitor.monitor f >>= k) w = k (f w.monitor) w := rfl

theorem assign_bind {β : Type} (f : ResourceMonitor → ResourceMonitor) (k : Unit → Program β)
    (w : World) : (assign f >>= k) w = k () { w with monitor := f w.monitor } := rfl

/-- The parameters of an answer. -/
theorem metadata_answered {topic : Bytes} {m : PcfMessage} {msg : MQMessage} {least : Int}
    (hleast : least ≤ 36) (answer : subscribeAndGet topic s = (.ok (some msg), s'))
    (data : msg.data = m.bytes) :
    metadata least topic { session := s, monitor } =
      (.ok (some m.params), { session := s', monitor }) := by
  have hsession : session (subscribeAndGet topic) { session := s, monitor } =
      (.ok (some msg), { session := s', monitor }) := by
    unfold session
    rw [Effect.zoom_apply, answer]
  unfold metadata
  rw [Effect.bind_of_ok hsession]
  dsimp only
  rw [data, if_neg m.pcfHeaderSize_le, m.paramsBehind_bytes hleast]
  rfl

theorem discoverElements_answered {t : TypeNode} (h : Answers t.exchange s s') :
    discoverElements { typeId := intUnder mqiamoMonitorType t.params, typeName := t.name }
        t.topic { session := s, monitor } =
      (.ok t.monitorType, { session := s', monitor }) := by
  unfold TypeNode.exchange at h
  cases h with
  | cons answer data behind =>
      cases behind
      unfold discoverElements
      rw [Effect.bind_of_ok (metadata_answered (by decide) answer data)]
      exact congrArg (fun t => (Outcome.ok t, _)) (addElements_node t)

theorem addTypes_answered {items : Described TypeNode} {cls : MonitorClass}
    (hnamed : ∀ t ∈ items.nodes, t.name ≠ [] ∧ t.topic ≠ [])
    (h : Answers (items.nodes.flatMap TypeNode.exchange) s s') :
    addTypes ((items.entries TypeNode.toGroup).map Entry.param) cls { session := s, monitor } =
      (.ok { cls with
        types := cls.types ++
          (items.nodes.map TypeNode.monitorType).filter fun t => t.elements ≠ [] },
        { session := s', monitor }) := by
  rw [params_entries]
  induction items generalizing s cls with
  | nil =>
      cases h
      simp [addTypes, Described.nodes]
  | cons item items ih =>
      cases item with
      | inl c =>
          rw [List.map_cons, Sum.elim_inl, addTypes,
            if_pos (by rw [c.param_type]; exact c.type_ne)]
          exact ih hnamed h
      | inr t =>
          rw [Described.nodes_inr] at hnamed h ⊢
          obtain ⟨hname, htopic⟩ := hnamed t List.mem_cons_self
          rw [List.flatMap_cons] at h
          obtain ⟨s₁, ht, hrest⟩ := h.append_inv
          have htype : t.entry.param.type = mqcftGroup := rfl
          have hgroup : typeOf t.entry.param.groupParams =
              ({ typeId := intUnder mqiamoMonitorType t.params, typeName := t.name },
                t.topic) := typeOf_eq t.params
          rw [List.map_cons, Sum.elim_inr, addTypes, if_neg (not_not.mpr htype), hgroup]
          dsimp only
          rw [if_neg (not_or.mpr ⟨hname, htopic⟩),
            Effect.bind_of_ok (discoverElements_answered ht),
            ih (fun u hu => hnamed u (List.mem_cons_of_mem t hu)) hrest, List.map_cons]
          by_cases hempty : t.monitorType.elements = []
          · rw [if_pos hempty, List.filter_cons_of_neg (by simpa using hempty)]
          · rw [if_neg hempty, List.filter_cons_of_pos (by simpa using hempty),
              List.append_assoc]
            rfl

/-- `discover_types` builds the class. -/
theorem discoverTypes_answered {c : ClassNode} (htopic : c.topic ≠ [])
    (hnamed : ∀ t ∈ c.types, t.name ≠ [] ∧ t.topic ≠ []) (h : Answers c.exchange s s') :
    discoverTypes (classOf c.params) { session := s, monitor } =
      (.ok (if c.monitorClass.types = [] then none else some c.monitorClass),
        { session := s', monitor }) := by
  unfold ClassNode.exchange at h
  cases h with
  | cons answer data behind =>
      have hclass := classOf_eq c.params
      have htopicString : (classOf c.params).topicString = c.topic :=
        congrArg MonitorClass.topicString hclass
      unfold discoverTypes
      rw [if_neg (by rw [htopicString]; exact htopic), htopicString,
        Effect.bind_of_ok (metadata_answered (by decide) answer data)]
      have hadd : addTypes _ (classOf c.params) { session := _, monitor } = _ :=
        addTypes_answered hnamed behind
      refine (Effect.bind_of_ok hadd).trans ?_
      rw [hclass]
      rfl

theorem addClasses_answered {items : Described ClassNode}
    (hclass : ∀ c ∈ items.nodes, c.name ≠ [] ∧ c.topic ≠ [])
    (htype : ∀ c ∈ items.nodes, ∀ t ∈ c.types, t.name ≠ [] ∧ t.topic ≠ [])
    (h : Answers (items.nodes.flatMap ClassNode.exchange) s s') :
    addClasses ((items.entries ClassNode.toGroup).map Entry.param) { session := s, monitor } =
      (.ok (),
        { session := s'
          monitor :=
            { monitor with
              classes := monitor.classes ++
                (items.nodes.map ClassNode.monitorClass).filter fun c => c.types ≠ [] } }) := by
  rw [params_entries]
  induction items generalizing s monitor with
  | nil =>
      cases h
      simp [addClasses, Described.nodes]
  | cons item items ih =>
      cases item with
      | inl c =>
          rw [List.map_cons, Sum.elim_inl, addClasses,
            if_pos (by rw [c.param_type]; exact c.type_ne)]
          exact ih hclass htype h
      | inr c =>
          rw [Described.nodes_inr] at hclass htype h ⊢
          obtain ⟨hname, htopic⟩ := hclass c List.mem_cons_self
          rw [List.flatMap_cons] at h
          obtain ⟨s₁, hc, hrest⟩ := h.append_inv
          have hgroup : c.entry.param.type = mqcftGroup := rfl
          have hparams : c.entry.param.groupParams = c.params := rfl
          have hnamed : (classOf c.params).className ≠ [] := by
            rw [classOf_eq]
            exact hname
          rw [List.map_cons, Sum.elim_inr, addClasses, if_neg (not_not.mpr hgroup), hparams,
            if_neg hnamed, Effect.bind_of_ok
            (discoverTypes_answered htopic (htype c List.mem_cons_self) hc), List.map_cons]
          have hclass' := fun d hd => hclass d (List.mem_cons_of_mem c hd)
          have htype' := fun d hd => htype d (List.mem_cons_of_mem c hd)
          by_cases hempty : c.monitorClass.types = []
          · rw [if_pos hempty, List.filter_cons_of_neg (by simpa using hempty)]
            exact ih hclass' htype' hrest
          · rw [if_neg hempty, List.filter_cons_of_pos (by simpa using hempty)]
            dsimp only
            rw [assign_bind, ih hclass' htype' hrest]
            simp

/-- `discover` builds what is kept of the tree. -/
theorem discover_answered {qmgrName : Bytes} {tree : Metadata}
    (hclass : ∀ c ∈ tree.classes, c.name ≠ [] ∧ c.topic ≠ [])
    (htype : ∀ c ∈ tree.classes, ∀ t ∈ c.types, t.name ≠ [] ∧ t.topic ≠ [])
    (h : Answers (tree.exchange qmgrName) s s') :
    discover { session := s, monitor := { qmgrName } } =
      (.ok (decide (tree.kept ≠ [])),
        { session := s'
          monitor :=
            { qmgrName, classes := tree.kept
              typeElements := if tree.kept = [] then ∅ else addTypeElements ∅ tree.kept } }) := by
  unfold Metadata.exchange at h
  cases h with
  | cons answer data behind =>
      have hclasses : discoverClasses { session := s, monitor := { qmgrName } } =
          (.ok (decide (tree.kept ≠ [])),
            { session := s', monitor := { qmgrName, classes := tree.kept } }) := by
        unfold discoverClasses
        rw [monitor_bind]
        have hmeta : metadata 36 _ { session := _, monitor := { qmgrName } } = _ :=
          metadata_answered le_rfl answer data
        unfold classesTopic at hmeta
        rw [Effect.bind_of_ok hmeta]
        have hadd : addClasses _ { session := _, monitor := { qmgrName } } = _ :=
          addClasses_answered hclass htype behind
        refine (Effect.bind_of_ok hadd).trans ?_
        rfl
      unfold discover
      rw [Effect.bind_of_ok hclasses]
      by_cases hempty : tree.kept = []
      · simp [hempty]
      · simp [hempty, assign]
        rfl

end Discovery

/-! ## A queue manager that answers -/

/-- The replies to the calls of `subscribe_and_get`, when there is a message. -/
def metadataReplies (m : PcfMessage) : List Reply :=
  [{ cc := .ok, objectName := ascii "EXPORTER.SUB.1" }, { cc := .ok },
    { cc := .ok, message := m.bytes }, { cc := .ok }, { cc := .ok }]

/-- Such replies give the message, and leave the client as it is. -/
theorem subscribeAndGet_replies {topic : Bytes} {m : PcfMessage} {s : Session}
    {rest : List Reply} (hconnected : s.client.connected = true)
    (hsupply : s.mqi.supply = metadataReplies m ++ rest) (hfits : m.bytes.length ≤ 64 * 1024)
    (hplain : m.bytes.take 4 ≠ ascii "RFH ") :
    ∃ msg s', subscribeAndGet topic s = (.ok (some msg), s') ∧ msg.data = m.bytes ∧
      s'.client = s.client ∧ s'.mqi.supply = rest := by
  have hlong : 36 ≤ m.bytes.length := by
    have hle := m.pcfHeaderSize_le
    unfold pcfHeaderSize at hle
    omega
  have hpos : m.bytes.length ≠ 0 := by omega
  have hdata : (publication m.bytes {}).data = m.bytes := by
    unfold publication stripMqrfh2
    dsimp only
    rw [if_neg (by omega), if_pos hplain]
  obtain ⟨s₁, hopen, hclient, hsupply₁⟩ :=
    openDynamicQueue_answered (ascii "SYSTEM.DEFAULT.MODEL.QUEUE") mqooInputExclusive
      (ascii "EXPORTER.SUB.*") hsupply (by simp) (by decide)
  have hresult := getResult_fits (r := { cc := .ok, message := m.bytes }) (by simp) hfits
  -- each call takes the next reply
  unfold subscribeAndGet mqsub mqget mqclose
  rw [client_bind, if_neg (not_not.mpr hconnected),
    Effect.bind_of_ok (Effect.tryCatch_of_ok (Effect.map_of_ok some hopen))]
  dsimp only
  rw [Effect.bind_of_ok (mqi_call_cons hsupply₁), if_neg (by simp),
    Effect.bind_of_ok (mqi_call_cons rfl), hresult, Effect.when_pos (by decide),
    Effect.when_pos (by decide), bind_assoc, Effect.bind_of_ok (mqi_call_cons rfl), pure_bind,
    bind_assoc, Effect.bind_of_ok (mqi_call_cons rfl), pure_bind,
    if_neg (not_or.mpr ⟨by simp, hpos⟩), lift_copyOut hfits, pure_bind]
  exact ⟨_, _, rfl, hdata, hclient, rfl⟩

/-- So every sequence of messages that fit in the buffer can be answered. -/
theorem answers_of_supply {xs : List (Bytes × PcfMessage)} {s : Session} {rest : List Reply}
    (hconnected : s.client.connected = true)
    (hsupply : s.mqi.supply = (xs.flatMap fun x => metadataReplies x.2) ++ rest)
    (hfits : ∀ x ∈ xs, x.2.bytes.length ≤ 64 * 1024)
    (hplain : ∀ x ∈ xs, x.2.bytes.take 4 ≠ ascii "RFH ") :
    ∃ s', Answers xs s s' ∧ s'.client = s.client ∧ s'.mqi.supply = rest := by
  induction xs generalizing s with
  | nil => exact ⟨s, .nil s, rfl, hsupply⟩
  | cons x xs ih =>
      rw [List.flatMap_cons, List.append_assoc] at hsupply
      obtain ⟨msg, s₁, hget, hdata, hclient, hrest⟩ :=
        subscribeAndGet_replies hconnected hsupply (hfits x List.mem_cons_self)
          (hplain x List.mem_cons_self)
      obtain ⟨s', hanswers, hclient', hrest'⟩ :=
        ih (hclient ▸ hconnected) hrest (fun y hy => hfits y (List.mem_cons_of_mem x hy))
          fun y hy => hplain y (List.mem_cons_of_mem x hy)
      exact ⟨s', .cons hget hdata hanswers, hclient'.trans hclient, hrest'⟩

end IbmmqExporter.Monitor
