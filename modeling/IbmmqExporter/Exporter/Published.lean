/-
  Exporter/Published.lean --- what the queue manager publishes, and what is exported of it.

  Behind the inquiries a cycle reads what has been published on each data subscription.
  A publication has numbers under identifiers; what they mean is in the metadata.

  WHAT THE FILE PROVES.  Whatever has been published, in messages that fit into the buffer
  and no more of them than are read on a subscription, `collect_publication_metrics`
  returns, has read all of it, and of every series the registry reads the last value that
  the publications have for it by the metadata, or what it read before
  (`publications_exported`).
-/
import IbmmqExporter.Exporter.Cycle
import IbmmqExporter.Metrics.Reports
import IbmmqExporter.Monitor.Elements

set_option autoImplicit false

namespace IbmmqExporter.Exporter

open Foundation Effect Mq
open Metrics (PublicationFamilies Publisher Registry Sample publicationFamily publicationKey
  publicationLabels recordPublication registry_foldl scopeOf seriesOf)
open Monitor (DataSub Discovered ElementMap Metadata NoElementZero PcfMessage PublicationMetric
  ResourceMonitor TypeNode World)

/-! ## What is on a queue -/

/-- A publication, and the answer of the `MQGET` that finds it, with the message as it is
or behind a header `MQRFH2`. -/
structure Publication where
  content : PcfMessage
  reply : Reply
  found : reply.cc ≠ .failed
  fits : reply.message.length ≤ 64 * 1024
  carries : (publication reply.message reply.md).data = content.bytes

/-- What is on the queue of a data subscription, and the answer that there is no more. -/
structure Feed where
  publications : List Publication
  last : Reply
  drained : last.cc = .failed
  few : publications.length ≤ 500

namespace Feed

/-- The answers in the order of the calls; behind 500 publications there is no call. -/
def answers (x : Feed) : List Reply :=
  x.publications.map Publication.reply ++ if x.publications.length < 500 then [x.last] else []

/-- The messages that are read. -/
def messages (x : Feed) : List MQMessage :=
  x.publications.map fun p => publication p.reply.message p.reply.md

theorem data_messages (x : Feed) :
    x.messages.map MQMessage.data = (x.publications.map Publication.content).map
      PcfMessage.bytes := by
  unfold messages
  rw [List.map_map, List.map_map]
  exact List.map_congr_left fun p _ => p.carries

end Feed

section Reading

variable {c : MQClient}

/-- There is something in a publication. -/
theorem Publication.length_pos (p : Publication) : p.reply.message.length ≠ 0 := by
  intro hnone
  have hempty : p.reply.message = [] := List.eq_nil_of_length_eq_zero hnone
  have hcarries := p.carries
  rw [hempty] at hcarries
  have hlong := p.content.pcfHeaderSize_le
  rw [← hcarries] at hlong
  exact hlong (Nat.succ_pos 35)

/-- The loop that reads publications ends at the answer that there are none, or when it
has read as many as it may. -/
theorem returns_readPublications (hobj : MQHOBJ) {last : Reply} (hlast : last.cc = .failed)
    {n : Nat} {ps : List Publication} (hfew : ps.length ≤ n) (messages : List MQMessage) :
    Returns c (readPublications hobj n messages)
      (ps.map Publication.reply ++ if ps.length < n then [last] else [])
      (messages ++ ps.map fun p => publication p.reply.message p.reply.md) := by
  induction n generalizing ps messages with
  | zero =>
      obtain rfl := List.eq_nil_of_length_eq_zero (Nat.le_zero.mp hfew)
      rw [List.length_nil, if_neg (Nat.lt_irrefl 0), List.map_nil, List.map_nil,
        List.append_nil messages]
      exact returns_pure messages
  | succ n ih =>
      unfold readPublications
      cases ps with
      | nil =>
          rw [List.length_nil, if_pos (Nat.succ_pos n), List.map_nil, List.map_nil,
            List.append_nil]
          refine (returns_call last).finally ?_
          rw [if_pos (Or.inl (getResult_failed _ hlast).1)]
          exact returns_pure messages
      | cons p ps =>
          have hrest := ih (Nat.le_of_succ_le_succ hfew)
            (messages ++ [publication p.reply.message p.reply.md])
          rw [List.append_assoc] at hrest
          simp only [List.map_cons, List.length_cons, Nat.succ_lt_succ_iff]
          show Returns c _ ([p.reply] ++ _) _
          refine Uses.then (returns_call p.reply) ?_
          rw [getResult_fits p.found p.fits]
          dsimp only
          rw [if_neg (not_or.mpr ⟨p.found, p.length_pos⟩), lift_copyOut p.fits]
          exact hrest

/-- What is on the queue is read. -/
theorem returns_getMessagesFromHandle (hc : c.connected = true) {hobj : MQHOBJ}
    (hopen : hobj ≠ 0) (x : Feed) :
    Returns c (getMessagesFromHandle hobj 500) x.answers x.messages := by
  unfold getMessagesFromHandle
  refine uses_gets_then (fun s hs => congrArg MQClient.connected hs) ?_
  rw [if_neg (not_or.mpr ⟨not_not.mpr hc, hopen⟩)]
  exact returns_readPublications hobj x.drained x.few []

end Reading

/-! ## What the publications say -/

/-- A data subscription, its type in the metadata, and what has been published. -/
structure Watched (tree : Metadata) where
  sub : DataSub
  type : TypeNode
  isType : tree.IsTypeOf sub type
  feed : Feed

namespace Watched

variable {tree : Metadata}

/-- The answers in the order of the calls. -/
def answers (x : Watched tree) : List Reply := x.feed.answers

/-- What the publications say by the metadata. -/
def metrics (x : Watched tree) : List PublicationMetric :=
  (x.feed.publications.map Publication.content).flatMap (x.type.metrics x.sub)

end Watched

/-- The value of an element for its series. -/
def publishedSample (cfg : Metrics.Config) (plat : Bytes) (pm : PublicationMetric) : Sample :=
  ((publicationFamily (scopeOf pm) pm.metricName, publicationLabels cfg plat pm), pm.value)

/-- What the publications mean for the series. -/
def publishedSamples {tree : Metadata} (cfg : Metrics.Config) (plat : Bytes) (xs : List (Watched tree)) :
    List Sample :=
  (xs.flatMap Watched.metrics).map (publishedSample cfg plat)

section Monitor

variable {α β : Type} {c : MQClient} {m : ResourceMonitor} {answers answers' : List Reply} {a : α}
  {b : β} {tree : Metadata}

/-- The monitor's program returns `a` when it is given these answers, and leaves the client
and the monitor as they are. -/
abbrev Watches (c : MQClient) (m : ResourceMonitor) (p : Monitor.Program α)
    (answers : List Reply) (a : α) : Prop :=
  Uses (fun w : World => w.session.supply) (fun w => w.session.client = c ∧ w.monitor = m) p
    answers fun b w => b = a ∧ w.session.client = c ∧ w.monitor = m

theorem watches_pure (a : α) : Watches c m (pure a) [] a := uses_pure fun _ hw => ⟨rfl, hw⟩

theorem watches_session {method : Method α} (h : Returns c method answers a) :
    Watches c m (Monitor.session method) answers a := by
  refine Uses.zoom (fun w hw => ?_) fun _ _ => rfl
  refine h.mono (fun s hs => ?_) fun b s hb => ⟨hb.1, hb.2, hw.2⟩
  exact (congrArg Session.client hs).trans hw.1

theorem watches_monitor {f : ResourceMonitor → α} {k : α → Monitor.Program β}
    (hk : Watches c m (k (f m)) answers b) :
    Watches c m (Monitor.monitor f >>= k) answers b :=
  uses_gets_then (fun _ hw => congrArg f hw.2) hk

/-- The loop over the data subscriptions finds what the publications say. -/
theorem watches_publicationsOf (hc : c.connected = true) {xs : List (Watched tree)}
    (hopen : ∀ x ∈ xs, x.sub.handles.hobj ≠ 0)
    (helems : ∀ x ∈ xs, m.typeElements.lookup (Monitor.typeKey x.sub.className x.sub.typeName) =
      some (Monitor.elementMap x.type.kept))
    (hmeans : ∀ x ∈ xs, ∀ p, Monitor.publishedMetrics x.sub (Monitor.elementMap x.type.kept)
      (PcfMessage.params p) = x.type.metrics x.sub p) (metrics : List PublicationMetric) :
    Watches c m (Monitor.publicationsOf (xs.map Watched.sub) metrics)
      (xs.flatMap Watched.answers) (metrics ++ xs.flatMap Watched.metrics) := by
  induction xs generalizing metrics with
  | nil =>
      rw [List.flatMap_nil, List.flatMap_nil, List.append_nil]
      exact watches_pure metrics
  | cons x xs ih =>
      obtain ⟨hx, hxs⟩ := List.forall_mem_cons.mp hopen
      obtain ⟨helem, helems⟩ := List.forall_mem_cons.mp helems
      obtain ⟨hmean, hmeans⟩ := List.forall_mem_cons.mp hmeans
      have hfound : Monitor.messageMetrics x.sub (Monitor.elementMap x.type.kept)
          x.feed.messages = .ok x.metrics := by
        rw [Monitor.messageMetrics_publications x.feed.data_messages]
        exact congrArg Outcome.ok (List.flatMap_congr fun p _ => hmean p)
      rw [List.flatMap_cons, List.flatMap_cons, ← List.append_assoc]
      unfold Monitor.publicationsOf
      refine Uses.then (watches_session (returns_getMessagesFromHandle hc hx x.feed)) ?_
      refine watches_monitor ?_
      rw [helem]
      dsimp only
      rw [hfound]
      exact ih hxs helems hmeans (metrics ++ x.metrics)

end Monitor

/-! ## The names of the families -/

/-- The underscore, which stands between the class and the name in a key. -/
def separator : UInt8 := 95

/-- The classes have no underscore, so that a key tells class and name. -/
def PlainClass (pm : PublicationMetric) : Prop := separator ∉ pm.className

/-- The families are registered under the names of the elements. -/
def NamedByElements (families : PublicationFamilies) : Prop :=
  ∀ pm : PublicationMetric, PlainClass pm → ∀ name,
    families.lookup (publicationKey pm) = some name → name = pm.metricName

section Families

variable {families : PublicationFamilies} {x y : PublicationMetric}

/-- What stands behind the first separator. -/
theorem dropWhile_separator {front behind : Bytes} (h : separator ∉ front) :
    (front ++ separator :: behind).dropWhile (fun b => decide (b ≠ separator)) =
      separator :: behind := by
  rw [List.dropWhile_append_of_pos fun b hb =>
    decide_eq_true (ne_of_mem_of_not_mem hb h)]
  exact List.dropWhile_cons_of_neg (by simp)

/-- A key tells the name of the element. -/
theorem metricName_of_key (hx : PlainClass x) (hy : PlainClass y)
    (h : publicationKey x = publicationKey y) : x.metricName = y.metricName := by
  have hseparator : ascii "_" = [separator] := by decide
  have hkeys := (Prod.mk.inj h).2
  rw [hseparator, List.append_assoc, List.append_assoc, List.singleton_append,
    List.singleton_append] at hkeys
  have hbehind := congrArg (List.dropWhile fun b => decide (b ≠ separator)) hkeys
  rw [dropWhile_separator hx, dropWhile_separator hy] at hbehind
  exact (List.cons.inj hbehind).2

/-- Registering a family under the name of its element keeps the others. -/
theorem NamedByElements.intern (h : NamedByElements families) (hx : PlainClass x) :
    NamedByElements (intern publicationKey PublicationMetric.metricName families x).2 := by
  cases hfound : families.lookup (publicationKey x) with
  | some name =>
      rw [intern_of_some _ _ hfound]
      exact h
  | none =>
      rw [intern_of_none _ _ hfound]
      intro y hy name hname
      by_cases hkey : publicationKey y = publicationKey x
      · rw [hkey, Finmap.lookup_insert] at hname
        rw [← Option.some.inj hname]
        exact metricName_of_key hx hy hkey.symm
      · rw [Finmap.lookup_insert_of_ne _ hkey] at hname
        exact h y hy name hname

theorem NamedByElements.recorded (cfg : Metrics.Config) (plat : Bytes) {p : Publisher}
    {pubs : List PublicationMetric} (h : NamedByElements p.families)
    (hpubs : ∀ pm ∈ pubs, PlainClass pm) :
    NamedByElements (pubs.foldl (recordPublication cfg plat) p).families := by
  induction pubs generalizing p with
  | nil => exact h
  | cons pm pubs ih =>
      obtain ⟨hpm, hpubs⟩ := List.forall_mem_cons.mp hpubs
      have hnext : NamedByElements (recordPublication cfg plat p pm).families := h.intern hpm
      exact ih hnext hpubs

/-- A sample is written under the name of its own element. -/
theorem NamedByElements.resolve_eq (h : NamedByElements families)
    {pubs : List PublicationMetric} (hpubs : ∀ pm ∈ pubs, PlainClass pm) (hx : PlainClass x) :
    resolve publicationKey PublicationMetric.metricName families pubs x = x.metricName := by
  unfold resolve
  cases hfound : families.lookup (publicationKey x) with
  | some name => exact h x hx name hfound
  | none =>
      cases hfirst : pubs.find? fun y => publicationKey y = publicationKey x with
      | none => rfl
      | some y =>
          have hkey := List.find?_some hfirst
          exact metricName_of_key (hpubs y (List.mem_of_find?_eq_some hfirst)) hx
            (of_decide_eq_true hkey)

/-- The samples are written to the series of their elements. -/
theorem NamedByElements.registry_eq (cfg : Metrics.Config) (plat : Bytes) {p : Publisher}
    {pubs : List PublicationMetric} (h : NamedByElements p.families)
    (hpubs : ∀ pm ∈ pubs, PlainClass pm) :
    (pubs.foldl (recordPublication cfg plat) p).registry =
      p.registry.put (pubs.map (publishedSample cfg plat)) := by
  rw [registry_foldl]
  unfold Registry.put
  rw [List.foldl_map]
  refine List.foldl_ext _ _ _ fun r pm hpm => ?_
  unfold seriesOf
  rw [h.resolve_eq hpubs (hpubs pm hpm)]
  rfl

end Families

/-! ## From the metadata to the registry -/

section Exporting

variable {tree : Metadata} {cfg : Metrics.Config} {p : Publisher} {xs : List (Watched tree)}
  {rest : List Reply}

/-- The classes of what is published are those of the metadata. -/
theorem Watched.plainClass (hplain : ∀ cls ∈ tree.classes, separator ∉ cls.name)
    {x : Watched tree} : ∀ pm ∈ x.metrics, PlainClass pm := by
  intro pm hpm
  obtain ⟨content, -, hpm⟩ := List.mem_flatMap.mp hpm
  obtain ⟨q, -, hq⟩ := List.mem_filterMap.mp hpm
  split at hq
  · cases hq
  · obtain ⟨g, -, rfl⟩ := Option.map_eq_some_iff.mp hq
    obtain ⟨cls, hcls, -, hname, -⟩ := x.isType
    exact hname ▸ hplain cls hcls

/-- What is published is exported, if the monitor has found the elements. -/
theorem exported_of_discovered (hfound : Discovered tree p.world.monitor)
    (hzero : NoElementZero tree p.world.monitor)
    (hplain : ∀ cls ∈ tree.classes, separator ∉ cls.name)
    (hfamilies : NamedByElements p.families)
    (hsubs : p.world.monitor.dataSubs = xs.map Watched.sub)
    (hc : p.world.session.client.connected = true)
    (hsupply : p.world.session.mqi.supply = xs.flatMap Watched.answers ++ rest) :
    ∃ p', Metrics.collectPublicationMetrics cfg p = (.ok (), p') ∧ p'.world.session.mqi.supply = rest ∧
      p'.world.session.client = p.world.session.client ∧
      p'.world.monitor = p.world.monitor ∧ NamedByElements p'.families ∧
      ∀ f ls, p'.registry f ls =
        (lastValue (publishedSamples cfg p.world.session.client.platformString xs) (f, ls)).or
          (p.registry f ls) := by
  have hsub : ∀ x ∈ xs, x.sub ∈ p.world.monitor.dataSubs :=
    fun x hx => hsubs ▸ List.mem_map_of_mem hx
  have hopen : ∀ x ∈ xs, x.sub.handles.hobj ≠ 0 := fun x hx => (hfound x.sub (hsub x hx)).1
  have helems : ∀ x ∈ xs, (x.type.elements.map Monitor.Group.elementId).Nodup ∧
      p.world.monitor.typeElements.lookup
        (Monitor.typeKey x.sub.className x.sub.typeName) =
          some (Monitor.elementMap x.type.kept) :=
    fun x hx => (hfound x.sub (hsub x hx)).2 x.type x.isType
  have hreads := watches_publicationsOf hc hopen (fun x hx => (helems x hx).2) (fun x hx content =>
    Monitor.publishedMetrics_kept (helems x hx).1
      (fun g hg => hzero x.sub (hsub x hx) x.type x.isType g hg) content) []
  rw [List.nil_append, ← hsubs] at hreads
  obtain ⟨_, w, hrun, hrest, rfl, hclient, hmonitor⟩ := hreads p.world rest ⟨rfl, rfl⟩ hsupply
  have hpubs : ∀ pm ∈ xs.flatMap Watched.metrics, PlainClass pm := by
    intro pm hpm
    obtain ⟨x, -, hx⟩ := List.mem_flatMap.mp hpm
    exact x.plainClass hplain pm hx
  have hread : zoom Publisher.world (fun w p => { p with world := w }) Monitor.processPublications
      p = (.ok (xs.flatMap Watched.metrics), { p with world := w }) := by
    rw [zoom_apply]
    unfold Monitor.processPublications
    rw [Monitor.monitor_bind, hrun]
  have hplat : w.session.client.platformString = p.world.session.client.platformString := by
    rw [hclient]
  refine ⟨(xs.flatMap Watched.metrics).foldl
    (recordPublication cfg w.session.client.platformString) { p with world := w }, ?_, ?_⟩
  · unfold Metrics.collectPublicationMetrics
    rw [bind_of_ok hread]
    split
    · next hnone =>
        rw [hnone]
        rfl
    · rfl
  · refine ⟨?_, ?_, ?_, NamedByElements.recorded cfg _ hfamilies hpubs, fun f ls => ?_⟩
    · rw [world_foldl_recordPublication]
      exact hrest
    · rw [world_foldl_recordPublication]
      exact hclient
    · rw [world_foldl_recordPublication]
      exact hmonitor
    · have hregistry := NamedByElements.registry_eq cfg w.session.client.platformString
        (p := { p with world := w }) hfamilies hpubs
      rw [hregistry, Registry.put_apply, hplat]
      rfl

/-- What is published between two cycles is exported: behind a discovery and the
subscriptions made after it the samples of a cycle return, and of every series the registry
reads the last value that the publications have for it by the metadata, or what it has
read before. -/
theorem publications_exported (hwf : tree.WellFormed)
    (hplain : ∀ cls ∈ tree.classes, separator ∉ cls.name) {qmgrName : Bytes}
    {queues : List Bytes} {s s₁ : Session} {w₁ w₂ : World} {b : Bool}
    (hanswers : Monitor.Answers (tree.exchange qmgrName) s s₁)
    (hdiscover : Monitor.discover { session := s, monitor := { qmgrName } } = (.ok true, w₁))
    (hcreate : Monitor.createSubscriptions queues w₁ = (.ok b, w₂))
    (hzero : NoElementZero tree w₂.monitor) (hmonitor : p.world.monitor = w₂.monitor)
    (hfamilies : NamedByElements p.families)
    (hsubs : w₂.monitor.dataSubs = xs.map Watched.sub)
    (hc : p.world.session.client.connected = true)
    (hsupply : p.world.session.mqi.supply = xs.flatMap Watched.answers ++ rest) :
    ∃ p', Metrics.collectPublicationMetrics cfg p = (.ok (), p') ∧
      p'.world.session.mqi.supply = rest ∧
      p'.world.session.client = p.world.session.client ∧
      p'.world.monitor = p.world.monitor ∧ NamedByElements p'.families ∧
      ∀ f ls, p'.registry f ls =
        (lastValue (publishedSamples cfg p.world.session.client.platformString xs) (f, ls)).or
          (p.registry f ls) := by
  have hfound := hwf.discovered hanswers hdiscover hcreate
  rw [← hmonitor] at hfound hzero hsubs
  exact exported_of_discovered hfound hzero hplain hfamilies hsubs hc hsupply

/-- No family has been registered yet. -/
theorem namedByElements_empty : NamedByElements ∅ := by
  intro pm _ name hname
  rw [Finmap.lookup_empty] at hname
  cases hname

end Exporting

/-! ## The processor -/

/-- The processor has been busy for 42.5 percent of the time. -/
def busyMessage : PcfMessage where
  hdr := Monitor.metadataHeader
  entries := [.leaf (.integer 1 4250)]
  strucLength_eq := (Monitor.systemSummary [1]).strucLength_eq

/-- This is published, and no more. -/
def busyFeed : Feed where
  publications :=
    [{ content := busyMessage
       reply := { cc := .ok, message := busyMessage.bytes }
       found := nofun
       fits := by decide +kernel
       carries := by decide +kernel }]
  last := { cc := .failed, rc := mqrcNoMsgAvailable }
  drained := rfl
  few := Nat.le_of_ble_eq_true rfl

/-- It is published to the subscription that the monitor has made. -/
def busyProcessor : Watched (Monitor.processorTree [1]) where
  sub := ⟨ascii "CPU", ascii "SystemSummary", ⟨1, 1⟩⟩
  type := Monitor.systemSummary [1]
  isType :=
    ⟨Monitor.processorClass [1], List.mem_singleton_self _, List.mem_singleton_self _,
      by decide +kernel, by decide +kernel⟩
  feed := busyFeed

/-- The exporter in front of the publications of a cycle. -/
def processorPublisher : Publisher where
  world :=
    { session :=
        { mqi := { supply := [busyProcessor].flatMap Watched.answers ++ [] }
          client := { connected := true, platform := Platform.unix } }
      monitor := (Monitor.processorWatched [1]).monitor }

/-- The time of the processor is exported. -/
theorem publications_exported_processor :
    ∃ p', Metrics.collectPublicationMetrics { queueManager := ascii "QM1" } processorPublisher =
        (.ok (), p') ∧
      p'.registry (.qmgr (ascii "cpu_time"))
        (Metrics.labels [(Metrics.qmgrLabel, ascii "QM1"), (Metrics.platformLabel, ascii "unix"),
          (Metrics.typeLabel, ascii "SystemSummary")]) = some (85 / 2) := by
  have hdistinct : ((Monitor.systemSummary [1]).elements.map Monitor.Group.elementId).Nodup := by
    decide +kernel
  obtain ⟨s₁, hanswers, hdiscover⟩ := Monitor.discover_facingProcessor hdistinct
    (by decide +kernel) (by decide +kernel) (by decide +kernel)
  obtain ⟨b, hsome, -⟩ := Monitor.eq_ok_of_match (c := Monitor.createSubscriptions [])
    (w := Monitor.processorFound [1]) (f := id) (by decide +kernel)
  have hcreate : Monitor.createSubscriptions [] (Monitor.processorFound [1]) =
      (.ok b, Monitor.processorWatched [1]) := hsome
  have hplain : ∀ cls ∈ (Monitor.processorTree [1]).classes, separator ∉ cls.name := by
    intro cls hcls
    obtain rfl := List.mem_singleton.mp hcls
    decide +kernel
  have hsubs : (Monitor.processorWatched [1]).monitor.dataSubs =
      [busyProcessor].map Watched.sub := by decide +kernel
  have hzero : NoElementZero (Monitor.processorTree [1]) (Monitor.processorWatched [1]).monitor := by
    rintro sub - t ⟨cls, hcls, ht, -, -⟩ g hg
    obtain rfl := List.mem_singleton.mp hcls
    obtain rfl := List.mem_singleton.mp ht
    obtain rfl := List.mem_singleton.mp hg
    decide +kernel
  have hmonitor : processorPublisher.world.monitor = (Monitor.processorWatched [1]).monitor := by
    dsimp only [processorPublisher]
  obtain ⟨p', hrun, -, -, -, -, hregistry⟩ := @publications_exported _
    { queueManager := ascii "QM1" } processorPublisher [busyProcessor] []
    (Monitor.processorTree_wellFormed hdistinct) hplain _ _ _ _ _ _ _ hanswers hdiscover hcreate
    hzero hmonitor namedByElements_empty hsubs rfl rfl
  refine ⟨p', hrun, ?_⟩
  rw [hregistry]
  decide +kernel

end IbmmqExporter.Exporter
