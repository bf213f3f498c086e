/-
  Monitor/Elements.lean --- from the metadata to the samples.

  A publication on a data subscription has numbers, each under the identifier of an
  element.  `process_publications` looks the identifiers up among the elements that
  `discover` has kept of the type.

  WHAT THE FILE PROVES.  Every number under a described identifier becomes a sample with
  the name and the datatype of the element, and no other, exactly if no type with a
  data subscription describes an element whose identifier is zero: `discover_elements`
  takes this identifier for a missing one.
-/
import IbmmqExporter.Monitor.Metadata
import IbmmqExporter.Mq.Handles

set_option autoImplicit false

namespace IbmmqExporter.Monitor

open Foundation Pcf Mq

/-! ## What is asked -/

/-- What holds of the metadata of a queue manager. -/
structure Metadata.WellFormed (tree : Metadata) : Prop where
  class_named : ∀ c ∈ tree.classes, c.name ≠ [] ∧ c.topic ≠ []
  type_named : ∀ c ∈ tree.classes, ∀ t ∈ c.types, t.name ≠ [] ∧ t.topic ≠ []
  classes_distinct : (tree.classes.map ClassNode.name).Nodup
  types_distinct : ∀ c ∈ tree.classes, (c.types.map TypeNode.name).Nodup
  elements_distinct : ∀ c ∈ tree.classes, ∀ t ∈ c.types, (t.elements.map Group.elementId).Nodup
  no_slash : ∀ c ∈ tree.classes, (47 : UInt8) ∉ c.name

/-- The group of the type that describes an identifier. -/
def TypeNode.describing (t : TypeNode) (id : Int32) : Option Group :=
  t.elements.find? fun g => g.elementId = id

/-- What a publication about the type says: a sample for every number under an
identifier that is described. -/
def TypeNode.metrics (t : TypeNode) (sub : DataSub) (p : PcfMessage) :
    List PublicationMetric :=
  p.params.filterMap fun q =>
    if q.type ≠ mqcftInteger64 ∧ q.type ≠ mqcftInteger then none
    else
      (t.describing q.paramId).map fun g =>
        { className := sub.className, typeName := sub.typeName,
          objectName := publishedQueue p.params,
          metricName := descriptionToMetricName g.element.description,
          value := normalizeValue q.int64Value g.element.datatype,
          isDelta := decide (g.element.datatype = delta) }

/-- A type of the metadata has the names of a data subscription. -/
def Metadata.IsTypeOf (tree : Metadata) (sub : DataSub) (t : TypeNode) : Prop :=
  ∃ c ∈ tree.classes, t ∈ c.types ∧ c.name = sub.className ∧ t.name = sub.typeName

/-- What is asked: whatever publications are received on a data subscription, the samples
are those that the publications say. -/
def ElementsComplete (tree : Metadata) (m : ResourceMonitor) : Prop :=
  ∀ sub ∈ m.dataSubs, ∀ t, tree.IsTypeOf sub t →
    ∀ (s s' : Session) (messages : List MQMessage) (ps : List PcfMessage),
      getMessagesFromHandle sub.handles.hobj 500 s = (.ok messages, s') →
      messages.map MQMessage.data = ps.map PcfMessage.bytes →
      (publicationsOf [sub] [] { session := s, monitor := m }).1 =
        .ok (ps.flatMap (t.metrics sub))

/-- No type with a data subscription describes an element under the identifier zero. -/
def NoElementZero (tree : Metadata) (m : ResourceMonitor) : Prop :=
  ∀ sub ∈ m.dataSubs, ∀ t, tree.IsTypeOf sub t → ∀ g ∈ t.elements, g.elementId ≠ 0

/-! ## The element maps -/

/-- The types of some classes, each with its key and its elements. -/
def typeEntries (classes : List MonitorClass) : List (Bytes × List MonitorElement) :=
  classes.flatMap fun cls => cls.types.map fun t => (typeKey cls.className t.typeName, t.elements)

/-- The elements of a type by their identifiers. -/
def elementMap (elements : List MonitorElement) : ElementMap :=
  fill MonitorElement.elementId (fun _ e => e) ∅ elements

theorem addTypeElements_eq (table : Table Bytes ElementMap) (classes : List MonitorClass) :
    addTypeElements table classes =
      fill Prod.fst (fun old e => fill MonitorElement.elementId (fun _ x => x) (old.getD ∅) e.2)
        table (typeEntries classes) := by
  unfold addTypeElements fill typeEntries
  rw [List.foldl_flatMap]
  congr 1
  funext elems cls
  rw [List.foldl_map]

/-- Names without a slash before the first one are read off a key. -/
theorem typeKey_inj {c c' t t' : Bytes} (hc : (47 : UInt8) ∉ c) (hc' : (47 : UInt8) ∉ c')
    (h : typeKey c t = typeKey c' t') : c = c' ∧ t = t' := by
  have hsplit : ∀ {c c' : Bytes}, (47 : UInt8) ∉ c → (47 : UInt8) ∉ c' →
      c ++ 47 :: t = c' ++ 47 :: t' → c = c' ∧ t = t' := by
    intro c
    induction c with
    | nil =>
        intro c' _ hc' h
        cases c' with
        | nil => exact ⟨rfl, (List.cons.inj h).2⟩
        | cons b c' => exact absurd ((List.cons.inj h).1 ▸ List.mem_cons_self) hc'
    | cons a c ih =>
        intro c' hc hc' h
        cases c' with
        | nil => exact absurd ((List.cons.inj h).1.symm ▸ List.mem_cons_self) hc
        | cons b c' =>
            obtain ⟨hab, h⟩ := List.cons.inj h
            obtain ⟨hcc, ht⟩ := ih (fun hm => hc (List.mem_cons_of_mem a hm))
              (fun hm => hc' (List.mem_cons_of_mem b hm)) h
            exact ⟨by rw [hab, hcc], ht⟩
  have hslash : ascii "/" = [47] := by decide
  unfold typeKey at h
  rw [hslash, List.append_assoc, List.append_assoc] at h
  exact hsplit hc hc' h

/-- The keys of what is kept are distinct. -/
theorem Metadata.WellFormed.keys_distinct {tree : Metadata} (hwf : tree.WellFormed) :
    ((typeEntries tree.kept).map Prod.fst).Nodup := by
  have hkept (cls : MonitorClass) (hcls : cls ∈ tree.kept) :
      ∃ c ∈ tree.classes, cls = c.monitorClass := by
    obtain ⟨c, hc, rfl⟩ := List.mem_map.mp (List.mem_filter.mp hcls).1
    exact ⟨c, hc, rfl⟩
  have hnames : (tree.kept.map MonitorClass.className).Nodup := by
    refine List.Nodup.sublist (List.filter_sublist.map _) ?_
    rw [List.map_map]
    exact hwf.classes_distinct
  unfold typeEntries
  rw [List.map_flatMap, List.nodup_flatMap]
  constructor
  · intro cls hcls
    obtain ⟨c, hc, rfl⟩ := hkept cls hcls
    have htypes : (c.kept.map MonitorType.typeName).Nodup := by
      refine List.Nodup.sublist (List.filter_sublist.map _) ?_
      rw [List.map_map]
      exact hwf.types_distinct c hc
    have hkeys : c.kept.map (fun t => typeKey c.name t.typeName) =
        (c.kept.map MonitorType.typeName).map (typeKey c.name) := by rw [List.map_map]; rfl
    rw [List.map_map]
    show (c.kept.map (fun t => typeKey c.name t.typeName)).Nodup
    rw [hkeys]
    have hno := hwf.no_slash c hc
    exact List.Nodup.map (fun t t' h => (typeKey_inj hno hno h).2) htypes
  · have hpair := List.pairwise_map.mp hnames
    refine hpair.imp_of_mem ?_
    intro cls cls' hcls hcls' hne
    obtain ⟨c, hc, rfl⟩ := hkept cls hcls
    obtain ⟨c', hc', rfl⟩ := hkept cls' hcls'
    intro key hkey hkey'
    simp only [List.map_map, List.mem_map, Function.comp_apply] at hkey hkey'
    obtain ⟨t, -, rfl⟩ := hkey
    obtain ⟨t', -, hkey'⟩ := hkey'
    exact hne (typeKey_inj (hwf.no_slash c hc) (hwf.no_slash c' hc') hkey'.symm).1

/-- The elements of a type that has any are found under its key. -/
theorem Metadata.WellFormed.lookup_type {tree : Metadata} (hwf : tree.WellFormed)
    {c : ClassNode} {t : TypeNode} (hc : c ∈ tree.classes) (ht : t ∈ c.types)
    (hkept : t.kept ≠ []) :
    (addTypeElements ∅ tree.kept).lookup (typeKey c.name t.name) = some (elementMap t.kept) := by
  have htype : t.monitorType ∈ c.kept :=
    List.mem_filter.mpr ⟨List.mem_map_of_mem ht, decide_eq_true hkept⟩
  have hclass : c.monitorClass ∈ tree.kept :=
    List.mem_filter.mpr ⟨List.mem_map_of_mem hc, decide_eq_true (List.ne_nil_of_mem htype)⟩
  have hmem : (typeKey c.name t.name, t.kept) ∈ typeEntries tree.kept :=
    List.mem_flatMap.mpr ⟨c.monitorClass, hclass, List.mem_map.mpr ⟨t.monitorType, htype, rfl⟩⟩
  rw [addTypeElements_eq]
  exact lookup_fill_of_mem Prod.fst _ hwf.keys_distinct hmem ∅

/-- An identifier is found among the kept elements of a type if it is described and not
zero. -/
theorem TypeNode.lookup_kept {t : TypeNode} (hdistinct : (t.elements.map Group.elementId).Nodup)
    (id : Int32) :
    (elementMap t.kept).lookup id =
      if id = 0 then none else (t.describing id).map Group.element := by
  have hkept : (t.kept.map MonitorElement.elementId).Nodup := by
    refine List.Nodup.sublist (List.filter_sublist.map _) ?_
    rw [List.map_map]
    exact hdistinct
  have hnot (h : ∀ e ∈ t.kept, e.elementId ≠ id) : (elementMap t.kept).lookup id = none :=
    (lookup_fill_of_notMem _ _ h ∅).trans (Finmap.lookup_empty id)
  unfold TypeNode.describing
  by_cases hzero : id = 0
  · rw [if_pos hzero]
    refine hnot fun e he => ?_
    rw [hzero]
    exact of_decide_eq_true (List.mem_filter.mp he).2
  · rw [if_neg hzero]
    cases hfind : t.elements.find? fun g => g.elementId = id with
    | none =>
        rw [List.find?_eq_none] at hfind
        refine hnot fun e he => ?_
        obtain ⟨g, hg, rfl⟩ := List.mem_map.mp (List.mem_filter.mp he).1
        exact fun h => hfind g hg (decide_eq_true h)
    | some g =>
        have hg : g ∈ t.elements := List.mem_of_find?_eq_some hfind
        have htest := List.find?_some hfind
        have hid : g.element.elementId = id := of_decide_eq_true htest
        have hmem : g.element ∈ t.kept := by
          refine List.mem_filter.mpr ⟨List.mem_map_of_mem hg, ?_⟩
          rw [hid]
          exact decide_eq_true hzero
        have hlookup := lookup_fill_of_mem MonitorElement.elementId (fun _ e => e) hkept hmem ∅
        rw [hid] at hlookup
        exact hlookup

/-! ## Publications -/

section Publications

variable {sub : DataSub} {emap : ElementMap} {t : TypeNode}

/-- The samples of publications, one after the other. -/
theorem messageMetrics_publications {messages : List MQMessage} {ps : List PcfMessage}
    (h : messages.map MQMessage.data = ps.map PcfMessage.bytes) :
    messageMetrics sub emap messages =
      .ok (ps.flatMap fun p => publishedMetrics sub emap p.params) := by
  induction messages generalizing ps with
  | nil =>
      obtain rfl : ps = [] := List.map_eq_nil_iff.mp h.symm
      rfl
  | cons msg messages ih =>
      cases ps with
      | nil => cases h
      | cons p ps =>
          obtain ⟨hmsg, hrest⟩ := List.cons.inj h
          rw [messageMetrics, hmsg, if_neg p.pcfHeaderSize_le, p.paramsBehind_bytes (by decide),
            ih hrest]
          rfl

/-- What the loop of `process_publications` makes of one subscription. -/
theorem publicationsOf_received {m : ResourceMonitor} {s s' : Session}
    {messages : List MQMessage} {ps : List PcfMessage}
    (hget : getMessagesFromHandle sub.handles.hobj 500 s = (.ok messages, s'))
    (hdata : messages.map MQMessage.data = ps.map PcfMessage.bytes)
    (hemap : m.typeElements.lookup (typeKey sub.className sub.typeName) = some emap) :
    (publicationsOf [sub] [] { session := s, monitor := m }).1 =
      .ok (ps.flatMap fun p => publishedMetrics sub emap p.params) := by
  have hsession : session (getMessagesFromHandle sub.handles.hobj 500)
      { session := s, monitor := m } = (.ok messages, { session := s', monitor := m }) := by
    unfold session
    rw [Effect.zoom_apply, hget]
  unfold publicationsOf
  rw [Effect.bind_of_ok hsession, monitor_bind, hemap]
  dsimp only
  rw [messageMetrics_publications hdata]
  rfl

/-- With the elements that are kept, a publication yields what it says if no element has
the identifier zero. -/
theorem publishedMetrics_kept (hdistinct : (t.elements.map Group.elementId).Nodup)
    (hzero : ∀ g ∈ t.elements, g.elementId ≠ 0) (p : PcfMessage) :
    publishedMetrics sub (elementMap t.kept) p.params = t.metrics sub p := by
  unfold publishedMetrics TypeNode.metrics
  apply List.filterMap_congr
  intro q _
  rw [TypeNode.lookup_kept hdistinct]
  split
  · rfl
  · split
    · next hq =>
        have hnone : t.describing q.paramId = none := by
          unfold TypeNode.describing
          rw [List.find?_eq_none]
          intro g hg
          rw [hq]
          exact fun h => hzero g hg (of_decide_eq_true h)
        rw [hnone]
        rfl
    · rw [Option.map_map]
      rfl

/-- A publication with one number, under the identifier zero. -/
def publicationOfZero : PcfMessage where
  hdr :=
    { type := 21, strucLength := 36, version := 1, command := 0, msgSeqNumber := 1, control := 1
      compCode := 0, reason := 0, parameterCount := 1 }
  entries := [.leaf (.integer 0 1)]
  strucLength_eq := rfl

/-- What it says is not found among the elements that are kept. -/
theorem publishedMetrics_zero (hdistinct : (t.elements.map Group.elementId).Nodup) :
    publishedMetrics sub (elementMap t.kept) publicationOfZero.params = [] := by
  have hid : (Cell.integer 0 1).param.paramId = 0 := rfl
  show List.filterMap _ [(Cell.integer 0 1).param] = []
  rw [List.filterMap_cons_none, List.filterMap_nil]
  rw [TypeNode.lookup_kept hdistinct, if_pos hid, Option.map_none]
  exact ite_self _

/-- An element with the identifier zero makes it say something. -/
theorem metrics_zero {g : Group} (hg : g ∈ t.elements) (hzero : g.elementId = 0) :
    t.metrics sub publicationOfZero ≠ [] := by
  have hsome : ∃ g', t.describing 0 = some g' := by
    unfold TypeNode.describing
    rw [← Option.isSome_iff_exists, List.find?_isSome]
    exact ⟨g, hg, decide_eq_true hzero⟩
  obtain ⟨g', hg'⟩ := hsome
  have htype : (Cell.integer 0 1).param.type = mqcftInteger := rfl
  have hid : (Cell.integer 0 1).param.paramId = 0 := rfl
  show List.filterMap _ [(Cell.integer 0 1).param] ≠ []
  simp [htype, hid, hg']

/-- The publication can be received on any queue that is open. -/
theorem exists_received {hobj : MQHOBJ} (hopen : hobj ≠ 0) :
    ∃ (s s' : Session) (messages : List MQMessage),
      getMessagesFromHandle hobj 500 s = (.ok messages, s') ∧
        messages.map MQMessage.data = [publicationOfZero].map PcfMessage.bytes := by
  let s : Session :=
    { mqi := { supply := [{ cc := .ok, message := publicationOfZero.bytes }, { cc := .failed }] }
      client := { connected := true } }
  have hdata : (publication publicationOfZero.bytes {}).data = publicationOfZero.bytes := by
    decide +kernel
  have hread : readPublications hobj 500 [] s =
      (.ok [publication publicationOfZero.bytes {}], (readPublications hobj 500 [] s).2) := rfl
  have hget : getMessagesFromHandle hobj 500 s = readPublications hobj 500 [] s := by
    show (if ¬ s.client.connected = true ∨ hobj = 0 then pure []
      else readPublications hobj 500 []) s = _
    rw [if_neg (by simp [s, hopen])]
  exact ⟨s, _, _, hget.trans hread, congrArg (· :: []) hdata⟩

end Publications

/-! ## Data subscriptions -/

section Subscriptions

/-- The queue of a new subscription is open. -/
theorem wp_createSubscription_hobj (topic : Bytes) (s : Session) :
    Effect.wp (createSubscription topic) (fun r _ => ∀ sub, r = some sub → sub.hobj ≠ 0)
      (fun _ _ => True) s := by
  have hopen (s : Session) : Effect.wp
      (openDynamicQueue (ascii "SYSTEM.DEFAULT.MODEL.QUEUE") mqooInputExclusive
        (ascii "EXPORTER.PUB.*")) (fun d _ => d.1 ≠ 0) (fun _ _ => True) s := by
    unfold openDynamicQueue
    dsimp only
    refine Effect.wp_seq (Effect.wp_of_state (R := fun _ => True) trivial) fun r s' _ => ?_
    rw [Effect.wp_ite]
    split
    · trivial
    · exact r.handle.property
  unfold createSubscription
  rw [Effect.wp_bind]
  show Effect.wp (if _ then _ else _) _ _ s
  split
  · exact nofun
  · refine Effect.wp_seq (wp_attempt (hopen s)) ?_
    rintro _ s' (⟨d, rfl, hd⟩ | ⟨rfl, -⟩)
    · refine Effect.wp_seq (Effect.wp_of_state (R := fun _ => True) trivial) fun sub s'' _ => ?_
      rw [Effect.wp_ite]
      split
      · exact Effect.wp_seq (Effect.wp_of_state (R := fun _ => True) trivial) fun _ _ _ => nofun
      · rintro _ ⟨⟩
        exact hd
    · exact nofun

/-- The queue of a subscription is open, and its class and type are those of a topic. -/
def MadeFor (wanted : List (Bytes × Bytes × Bytes)) (sub : DataSub) : Prop :=
  sub.handles.hobj ≠ 0 ∧ ∃ t ∈ wanted, sub.className = t.1 ∧ sub.typeName = t.2.1

theorem exists_of_mem_wantedTopics {queues : List Bytes} {classes : List MonitorClass}
    {t : Bytes × Bytes × Bytes} (ht : t ∈ wantedTopics queues classes) :
    ∃ cls ∈ classes, ∃ ty ∈ cls.types, t.1 = cls.className ∧ t.2.1 = ty.typeName := by
  obtain ⟨cls, hcls, ht⟩ := List.mem_flatMap.mp ht
  split at ht
  · cases ht
  · obtain ⟨ty, hty, ht⟩ := List.mem_flatMap.mp ht
    obtain ⟨topic, -, rfl⟩ := List.mem_map.mp ht
    exact ⟨cls, hcls, ty, hty, rfl, rfl⟩

/-- The body of the loops makes a subscription for its topic, or none. -/
theorem wp_subscribeData_made {wanted : List (Bytes × Bytes × Bytes)}
    {t : Bytes × Bytes × Bytes} (ht : t ∈ wanted) {w : World}
    (hmade : ∀ sub ∈ w.monitor.dataSubs, MadeFor wanted sub) :
    Effect.wp (subscribeData t.1 t.2.1 t.2.2)
      (fun _ w' => w'.monitor.typeElements = w.monitor.typeElements ∧
        ∀ sub ∈ w'.monitor.dataSubs, MadeFor wanted sub)
      (fun _ _ => True) w := by
  unfold subscribeData session
  rw [Effect.wp_bind, Effect.wp_zoom]
  refine Effect.wp_mono (wp_createSubscription_hobj t.2.2 w.session) (fun r s' hopen => ?_)
    fun _ _ h => h
  cases r with
  | none => exact ⟨rfl, hmade⟩
  | some handles =>
      refine ⟨rfl, fun sub hsub => ?_⟩
      rcases List.mem_append.mp hsub with hsub | hsub
      · exact hmade sub hsub
      · obtain rfl := List.mem_singleton.mp hsub
        exact ⟨hopen handles rfl, t, ht, rfl, rfl⟩

/-- What the data subscriptions are when they are made of the classes. -/
theorem wp_createSubscriptions_made (queues : List Bytes) (w : World)
    (hnone : w.monitor.dataSubs = []) :
    Effect.wp (createSubscriptions queues)
      (fun _ w' => w'.monitor.typeElements = w.monitor.typeElements ∧
        ∀ sub ∈ w'.monitor.dataSubs, MadeFor (wantedTopics queues w.monitor.classes) sub)
      (fun _ _ => True) w := by
  have hnew : ∀ sub ∈ w.monitor.dataSubs,
      MadeFor (wantedTopics queues w.monitor.classes) sub := by
    rw [hnone]
    exact nofun
  unfold createSubscriptions monitor
  rw [Effect.wp_bind, Effect.wp_gets, Effect.wp_ite]
  split
  · exact ⟨rfl, hnew⟩
  · rw [Effect.wp_bind, Effect.wp_gets, Effect.wp_bind]
    refine Effect.wp_mono (Effect.wp_forEach (I := fun ts w' =>
        ts ⊆ wantedTopics queues w.monitor.classes ∧
          w'.monitor.typeElements = w.monitor.typeElements ∧
          ∀ sub ∈ w'.monitor.dataSubs, MadeFor (wantedTopics queues w.monitor.classes) sub)
      ⟨List.Subset.refl _, rfl, hnew⟩ ?_) (fun _ w' hw' => ?_) fun _ _ h => h
    · rintro t ts w' ⟨hts, helems, hmade⟩
      obtain ⟨ht, hts⟩ := List.cons_subset.mp hts
      refine Effect.wp_mono (wp_subscribeData_made ht hmade) ?_ fun _ _ h => h
      rintro _ w'' ⟨helems', hmade'⟩
      exact ⟨hts, helems'.trans helems, hmade'⟩
    · exact hw'.2

end Subscriptions

/-! ## From discovery to publications -/

/-- The element maps are those of the types of the data subscriptions, whose queues are
open. -/
def Discovered (tree : Metadata) (m : ResourceMonitor) : Prop :=
  ∀ sub ∈ m.dataSubs, sub.handles.hobj ≠ 0 ∧ ∀ t, tree.IsTypeOf sub t →
    (t.elements.map Group.elementId).Nodup ∧
      m.typeElements.lookup (typeKey sub.className sub.typeName) = some (elementMap t.kept)

theorem Metadata.WellFormed.discovered {tree : Metadata} (hwf : tree.WellFormed)
    {qmgrName : Bytes} {queues : List Bytes} {s s₁ : Session} {w₁ w₂ : World} {b : Bool}
    (hanswers : Answers (tree.exchange qmgrName) s s₁)
    (hdiscover : discover { session := s, monitor := { qmgrName } } = (.ok true, w₁))
    (hsubs : createSubscriptions queues w₁ = (.ok b, w₂)) : Discovered tree w₂.monitor := by
  rw [discover_answered hwf.class_named hwf.type_named hanswers] at hdiscover
  obtain ⟨hfound, rfl⟩ := Prod.mk.inj hdiscover
  have hkept : tree.kept ≠ [] := of_decide_eq_true (Outcome.ok.inj hfound)
  obtain ⟨helems, hnew⟩ := Effect.of_wp_ok (wp_createSubscriptions_made queues _ rfl) hsubs
  dsimp only at helems hnew
  rw [if_neg hkept] at helems
  intro sub hsub
  obtain ⟨hopen, topic, htopic, hclass, htype⟩ := hnew sub hsub
  obtain ⟨cls, hcls, ty, hty, hclass', htype'⟩ := exists_of_mem_wantedTopics htopic
  rw [hclass'] at hclass
  rw [htype'] at htype
  refine ⟨hopen, ?_⟩
  rintro t ⟨c, hc, ht, hcname, htname⟩
  -- the subscription is made of a class and a type that are kept, and these are `c` and `t`
  obtain ⟨c', hc', rfl⟩ := List.mem_map.mp (List.mem_filter.mp hcls).1
  obtain ⟨t', ht', rfl⟩ := List.mem_map.mp (List.mem_filter.mp hty).1
  have hfull : t'.kept ≠ [] := of_decide_eq_true (List.mem_filter.mp hty).2
  obtain rfl : c = c' :=
    List.inj_on_of_nodup_map hwf.classes_distinct hc hc' (hcname.trans hclass)
  obtain rfl : t = t' :=
    List.inj_on_of_nodup_map (hwf.types_distinct c hc) ht ht' (htname.trans htype)
  rw [helems, ← hcname, ← htname]
  exact ⟨hwf.elements_distinct c hc t ht, hwf.lookup_type hc ht hfull⟩

/-- The samples are complete exactly if no element has the identifier zero. -/
theorem Discovered.complete_iff {tree : Metadata} {m : ResourceMonitor}
    (h : Discovered tree m) : ElementsComplete tree m ↔ NoElementZero tree m := by
  constructor
  · intro hcomplete sub hsub t ht g hg hzero
    obtain ⟨hopen, helems⟩ := h sub hsub
    obtain ⟨hdistinct, hemap⟩ := helems t ht
    obtain ⟨s, s', messages, hget, hdata⟩ := exists_received hopen
    have hsays := hcomplete sub hsub t ht s s' messages _ hget hdata
    rw [publicationsOf_received hget hdata hemap, List.flatMap_singleton,
      List.flatMap_singleton, publishedMetrics_zero hdistinct] at hsays
    exact metrics_zero hg hzero (Outcome.ok.inj hsays).symm
  · intro hzero sub hsub t ht s s' messages ps hget hdata
    obtain ⟨-, helems⟩ := h sub hsub
    obtain ⟨hdistinct, hemap⟩ := helems t ht
    rw [publicationsOf_received hget hdata hemap]
    congr 1
    apply List.flatMap_congr
    intro p _
    exact publishedMetrics_kept hdistinct (hzero sub hsub t ht) p

/-- Behind a discovery and the subscriptions made after it, every number under a
described identifier becomes a sample, and no other, if and only if no type with a data
subscription describes an element under the identifier zero. -/
theorem elementsComplete_iff {tree : Metadata} (hwf : tree.WellFormed) {qmgrName : Bytes}
    {queues : List Bytes} {s s₁ : Session} {w₁ w₂ : World} {b : Bool}
    (hanswers : Answers (tree.exchange qmgrName) s s₁)
    (hdiscover : discover { session := s, monitor := { qmgrName } } = (.ok true, w₁))
    (hsubs : createSubscriptions queues w₁ = (.ok b, w₂)) :
    ElementsComplete tree w₂.monitor ↔ NoElementZero tree w₂.monitor :=
  (hwf.discovered hanswers hdiscover hsubs).complete_iff

/-! ## The processor -/

/-- The header of a metadata message. -/
def metadataHeader : PCFHeader :=
  { type := 1, strucLength := 36, version := 3, command := 0, msgSeqNumber := 1, control := 1
    compCode := 0, reason := 0, parameterCount := 1 }

/-- The group of an element that is a percentage. -/
def percentageGroup (id : Int32) : Group where
  groupId := 8001
  members :=
    [.integer mqiamoMonitorElement id, .integer mqiamoMonitorDatatype percent,
      .string mqcamoMonitorDesc 0 ⟨ascii "CPU time", by decide, by decide⟩ (by decide)]
  short := by simp

/-- The type `SystemSummary` with elements of these identifiers. -/
def systemSummary (ids : List Int32) : TypeNode where
  groupId := 8002
  members :=
    [.string mqcamoMonitorType 0 ⟨ascii "SystemSummary", by decide, by decide⟩ (by decide),
      .string mqcaTopicString 0 ⟨ascii "ELEMENTS", by decide, by decide⟩ (by decide)]
  short := by decide
  hdr := metadataHeader
  strucLength_eq := rfl
  items :=
    .inl (.string mqcaTopicString 0 ⟨ascii "DATA", by decide, by decide⟩ (by decide)) ::
      ids.map fun id => .inr (percentageGroup id)

/-- The class `CPU` with this type. -/
def processorClass (ids : List Int32) : ClassNode where
  groupId := 8003
  members :=
    [.string mqcamoMonitorClass 0 ⟨ascii "CPU", by decide, by decide⟩ (by decide),
      .string mqcaTopicString 0 ⟨ascii "TYPES", by decide, by decide⟩ (by decide)]
  short := by decide
  hdr := metadataHeader
  strucLength_eq := rfl
  items := [.inr (systemSummary ids)]

/-- The metadata with this class. -/
def processorTree (ids : List Int32) : Metadata where
  hdr := metadataHeader
  strucLength_eq := rfl
  items := [.inr (processorClass ids)]

/-- A client whose questions about the metadata are answered, and which can make one
subscription. -/
def facingProcessor (ids : List Int32) : Session :=
  { mqi :=
      { supply :=
          (((processorTree ids).exchange (ascii "QM1")).flatMap fun x => metadataReplies x.2) ++
            [{ cc := .ok, objectName := ascii "EXPORTER.PUB.1" }, { cc := .ok }] }
    client := { connected := true } }

/-- Behind the discovery. -/
def processorFound (ids : List Int32) : World :=
  (discover { session := facingProcessor ids, monitor := { qmgrName := ascii "QM1" } }).2

/-- Behind the subscription. -/
def processorWatched (ids : List Int32) : World :=
  (createSubscriptions [] (processorFound ids)).2

theorem processorTree_wellFormed {ids : List Int32}
    (hdistinct : (((systemSummary ids).elements).map Group.elementId).Nodup) :
    (processorTree ids).WellFormed := by
  have hclasses : (processorTree ids).classes = [processorClass ids] := rfl
  have htypes : (processorClass ids).types = [systemSummary ids] := rfl
  have hclass : (processorClass ids).name = ascii "CPU" ∧
      (processorClass ids).topic = ascii "TYPES" := ⟨rfl, rfl⟩
  have htype : (systemSummary ids).name = ascii "SystemSummary" ∧
      (systemSummary ids).topic = ascii "ELEMENTS" := ⟨rfl, rfl⟩
  refine ⟨?_, ?_, ?_, ?_, ?_, ?_⟩ <;> rw [hclasses]
  · intro c hc
    obtain rfl := List.mem_singleton.mp hc
    rw [hclass.1, hclass.2]
    exact ⟨by decide, by decide⟩
  · intro c hc t ht
    obtain rfl := List.mem_singleton.mp hc
    rw [htypes] at ht
    obtain rfl := List.mem_singleton.mp ht
    rw [htype.1, htype.2]
    exact ⟨by decide, by decide⟩
  · exact List.nodup_singleton _
  · intro c hc
    obtain rfl := List.mem_singleton.mp hc
    exact List.nodup_singleton _
  · intro c hc t ht
    obtain rfl := List.mem_singleton.mp hc
    rw [htypes] at ht
    obtain rfl := List.mem_singleton.mp ht
    exact hdistinct
  · intro c hc
    obtain rfl := List.mem_singleton.mp hc
    rw [hclass.1]
    decide

/-- The metadata are discovered. -/
theorem discover_facingProcessor {ids : List Int32}
    (hdistinct : (((systemSummary ids).elements).map Group.elementId).Nodup)
    (hfits : ∀ x ∈ (processorTree ids).exchange (ascii "QM1"), x.2.bytes.length ≤ 64 * 1024)
    (hplain : ∀ x ∈ (processorTree ids).exchange (ascii "QM1"),
      x.2.bytes.take 4 ≠ ascii "RFH ")
    (hkept : (processorTree ids).kept ≠ []) :
    ∃ s₁, Answers ((processorTree ids).exchange (ascii "QM1")) (facingProcessor ids) s₁ ∧
      discover { session := facingProcessor ids, monitor := { qmgrName := ascii "QM1" } } =
        (.ok true, processorFound ids) := by
  obtain ⟨s₁, hanswers, -, -⟩ := answers_of_supply (s := facingProcessor ids) rfl rfl hfits hplain
  have hwf := processorTree_wellFormed hdistinct
  have hrun := discover_answered hwf.class_named hwf.type_named hanswers
  rw [decide_eq_true hkept] at hrun
  refine ⟨s₁, hanswers, ?_⟩
  unfold processorFound
  rw [hrun]

/-- A run that returns, from what it returns. -/
theorem eq_ok_of_match {α : Type} {c : Program α} {w : World} {f : α → Bool}
    (h : (match (c w).1 with
      | .ok a => f a
      | _ => false) = true) : ∃ a, c w = (.ok a, (c w).2) ∧ f a = true := by
  rcases hrun : c w with ⟨outcome, w'⟩
  rw [hrun] at h
  cases outcome with
  | ok a => exact ⟨a, rfl, h⟩
  | raised e => cases h
  | undefined => cases h
  | pending => cases h

theorem elementsComplete_iff_processor :
    ElementsComplete (processorTree [1, 2]) (processorWatched [1, 2]).monitor ↔
      NoElementZero (processorTree [1, 2]) (processorWatched [1, 2]).monitor := by
  have hdistinct : (((systemSummary [1, 2]).elements).map Group.elementId).Nodup := by
    decide +kernel
  obtain ⟨s₁, hanswers, hdiscover⟩ := discover_facingProcessor hdistinct (by decide +kernel)
    (by decide +kernel) (by decide +kernel)
  obtain ⟨b, hsubs, -⟩ := eq_ok_of_match (c := createSubscriptions []) (w := processorFound [1, 2])
    (f := id) (by decide +kernel)
  exact elementsComplete_iff (processorTree_wellFormed hdistinct) hanswers hdiscover hsubs

/-- The first element of the processor has the identifier zero; there is no sample of
it. -/
theorem not_elementsComplete_processor :
    ¬ ∀ (tree : Metadata) (qmgrName : Bytes) (queues : List Bytes) (s s₁ : Session)
      (w₁ w₂ : World) (b : Bool), tree.WellFormed → Answers (tree.exchange qmgrName) s s₁ →
        discover { session := s, monitor := { qmgrName } } = (.ok true, w₁) →
        createSubscriptions queues w₁ = (.ok b, w₂) → ElementsComplete tree w₂.monitor := by
  intro h
  have hdistinct : (((systemSummary [0, 1]).elements).map Group.elementId).Nodup := by
    decide +kernel
  have hwf := processorTree_wellFormed hdistinct
  obtain ⟨s₁, hanswers, hdiscover⟩ := discover_facingProcessor hdistinct (by decide +kernel)
    (by decide +kernel) (by decide +kernel)
  obtain ⟨b, hsubs, -⟩ := eq_ok_of_match (c := createSubscriptions []) (w := processorFound [0, 1])
    (f := id) (by decide +kernel)
  have hcomplete := h _ _ _ _ _ _ _ _ hwf hanswers hdiscover hsubs
  have hfound := hwf.discovered hanswers hdiscover hsubs
  have hiff := hfound.complete_iff
  have hzero := hiff.mp hcomplete
  rw [← processorWatched] at hzero
  have hsub : ⟨ascii "CPU", ascii "SystemSummary", ⟨1, 1⟩⟩ ∈
      (processorWatched [0, 1]).monitor.dataSubs := by decide +kernel
  have htype : (processorTree [0, 1]).IsTypeOf ⟨ascii "CPU", ascii "SystemSummary", ⟨1, 1⟩⟩
      (systemSummary [0, 1]) := by
    refine ⟨processorClass [0, 1], ?_, ?_, ?_, ?_⟩
    · exact List.mem_singleton_self _
    · exact List.mem_singleton_self _
    · decide +kernel
    · decide +kernel
  have helement : percentageGroup 0 ∈ (systemSummary [0, 1]).elements := List.mem_cons_self
  have hid : (percentageGroup 0).elementId = 0 := by decide +kernel
  exact hzero _ hsub _ htype _ helement hid

end IbmmqExporter.Monitor
