/-
  Metrics/Publications.lean --- `MetricsCollector::collect_publication_metrics`.

  A sample goes to a family that is registered under the metric name of its element,
  once for each key of class and metric name, and there to a series with the type or
  the queue as a label.

  WHAT THE FILE PROVES.  The family's name does not have the class, the name of an
  element loses characters, and the series of a queue does not have the type.  So
  samples that differ are kept apart only if no two of them agree in what is left.
-/
import IbmmqExporter.Foundation.Intern
import IbmmqExporter.Metrics.QueueStats
import IbmmqExporter.Monitor.Samples
import IbmmqExporter.Monitor.Stream

set_option autoImplicit false

namespace IbmmqExporter.Metrics

open Foundation Mq
open Monitor (PublicationMetric Sample World processPublications processSamples bare)

/-! ## The code -/

/-- Which of the two kinds of publication a sample comes from. -/
inductive Scope where
  /-- about the queue manager -/
  | qmgr
  /-- about a queue -/
  | queue
  deriving DecidableEq, Repr

/-- The branch that a sample takes. -/
def scopeOf (pm : PublicationMetric) : Scope := if pm.objectName = [] then .qmgr else .queue

/-- `pub_qmgr_metrics_` and `pub_queue_metrics_`: the name of the family that is
registered for a key. -/
abbrev PublicationFamilies : Type := Table (Scope × Bytes) Bytes

/-- The key of a sample. -/
def publicationKey (pm : PublicationMetric) : Scope × Bytes :=
  (scopeOf pm, pm.className ++ ascii "_" ++ pm.metricName)

/-- The family with a name. -/
def publicationFamily : Scope → Bytes → Family
  | .qmgr, name => .qmgr name
  | .queue, name => .queuePub name

/-- The label that a series has beside those of the queue manager. -/
def scopeLabel : Scope → LabelName
  | .qmgr => typeLabel
  | .queue => label "queue"

/-- The value of that label. -/
def scopeValue (pm : PublicationMetric) : Bytes :=
  match scopeOf pm with
  | .qmgr => pm.typeName
  | .queue => pm.objectName

/-- The labels of a sample's series. -/
def publicationLabels (cfg : Config) (plat : Bytes) (pm : PublicationMetric) : Labels :=
  cfg.addMetaLabels (labels
    [(qmgrLabel, cfg.queueManager), (platformLabel, plat),
     (scopeLabel (scopeOf pm), scopeValue pm)])

/-- What `collect_publication_metrics` works on. -/
structure Publisher where
  world : World := {}
  families : PublicationFamilies := ∅
  registry : Registry := fun _ _ => none

/-- The body of the loop of `collect_publication_metrics`. -/
def recordPublication (cfg : Config) (plat : Bytes) (p : Publisher) (pm : PublicationMetric) :
    Publisher :=
  let found := intern publicationKey PublicationMetric.metricName p.families pm
  { p with
    families := found.2
    registry := p.registry.set (publicationFamily (scopeOf pm) found.1)
      (publicationLabels cfg plat pm) pm.value }

/-- `MetricsCollector::collect_publication_metrics`. -/
def collectPublicationMetrics (cfg : Config) : Effect Publisher StdException Unit := do
  let pubs ← Effect.zoom Publisher.world (fun w p => { p with world := w }) processPublications
  if pubs = [] then return
  else
    let plat ← Effect.gets fun p => p.world.session.client.platformString
    Effect.modify fun p => pubs.foldl (recordPublication cfg plat) p

/-! ## Where the samples are written -/

/-- A series: its family and its labels. -/
abbrev Series : Type := Family × Labels

/-- The series that a sample is written to when it stands in a list. -/
def seriesOf (cfg : Config) (plat : Bytes) (families : PublicationFamilies)
    (pubs : List PublicationMetric) (pm : PublicationMetric) : Series :=
  (publicationFamily (scopeOf pm)
      (resolve publicationKey PublicationMetric.metricName families pubs pm),
    publicationLabels cfg plat pm)

/-- The samples are written one after the other, each to its series. -/
theorem registry_foldl (cfg : Config) (plat : Bytes) (p : Publisher)
    (pubs : List PublicationMetric) :
    (pubs.foldl (recordPublication cfg plat) p).registry =
      pubs.foldl (fun r pm =>
        r.set (seriesOf cfg plat p.families pubs pm).1 (seriesOf cfg plat p.families pubs pm).2
          pm.value) p.registry := by
  induction pubs generalizing p with
  | nil => rfl
  | cons pm pubs ih =>
      have hrest (q : PublicationMetric) :
          seriesOf cfg plat (recordPublication cfg plat p pm).families pubs q =
            seriesOf cfg plat p.families (pm :: pubs) q := by
        unfold seriesOf recordPublication
        rw [resolve_intern]
      rw [List.foldl_cons, ih, List.foldl_cons]
      simp only [hrest]
      congr 1
      unfold recordPublication seriesOf
      dsimp only
      rw [intern_fst _ _ p.families pm pubs]

/-! ## Samples apart -/

/-- The samples differ in class, type, element or object. -/
def Differ (x y : Sample) : Prop :=
  x.className ≠ y.className ∨ x.typeName ≠ y.typeName ∨ x.description ≠ y.description ∨
    x.objectName ≠ y.objectName

/-- What is asked: of what `process_publications` returns, samples that differ are
written to different series. -/
def SamplesApart (cfg : Config) (p : Publisher) : Prop :=
  ∀ samples w, processSamples p.world = (.ok samples, w) →
    ∀ x ∈ samples, ∀ y ∈ samples, Differ x y →
      seriesOf cfg w.session.client.platformString p.families (bare samples)
          x.toPublicationMetric ≠
        seriesOf cfg w.session.client.platformString p.families (bare samples)
          y.toPublicationMetric

/-- Two samples of one branch agree in the name under which their families are
registered, and in the label of their series, as far as the metadata leave it alone. -/
def Agree (cfg : Config) (families : PublicationFamilies) (pubs : List PublicationMetric)
    (x y : PublicationMetric) : Prop :=
  scopeOf x = scopeOf y ∧
    resolve publicationKey PublicationMetric.metricName families pubs x =
      resolve publicationKey PublicationMetric.metricName families pubs y ∧
    cfg.relabel (scopeLabel (scopeOf x)) (scopeValue x) =
      cfg.relabel (scopeLabel (scopeOf x)) (scopeValue y)

/-- The metadata make labels that agree but for one name agree altogether exactly when
they make the values under this name equal. -/
theorem addMetaLabels_eq_iff {cfg : Config} {ls ls' : Labels} {n : LabelName} {v v' : Bytes}
    (h : ls.lookup n = some v) (h' : ls'.lookup n = some v')
    (hrest : ∀ m, m ≠ n → ls.lookup m = ls'.lookup m) :
    cfg.addMetaLabels ls = cfg.addMetaLabels ls' ↔ cfg.relabel n v = cfg.relabel n v' := by
  constructor
  · intro heq
    have hlookup := congrArg (Finmap.lookup n) heq
    rw [lookup_addMetaLabels h, lookup_addMetaLabels h'] at hlookup
    exact Option.some.inj hlookup
  · intro heq
    apply Finmap.ext_lookup
    intro m
    by_cases hm : m = n
    · subst hm
      rw [lookup_addMetaLabels h, lookup_addMetaLabels h', heq]
    · unfold Config.addMetaLabels
      have hm' := hrest m hm
      clear h h' hrest heq
      generalize cfg.metadataTags.zip cfg.metadataValues = entries
      induction entries generalizing ls ls' with
      | nil => exact hm'
      | cons e entries ih =>
          apply ih
          by_cases he : m = e.1
          · subst he
            rw [Finmap.lookup_insert, Finmap.lookup_insert]
          · rw [Finmap.lookup_insert_of_ne _ he, Finmap.lookup_insert_of_ne _ he, hm']

/-- The labels of two samples of one branch. -/
theorem publicationLabels_eq_iff {cfg : Config} {plat : Bytes} {x y : PublicationMetric}
    (h : scopeOf x = scopeOf y) :
    publicationLabels cfg plat x = publicationLabels cfg plat y ↔
      cfg.relabel (scopeLabel (scopeOf x)) (scopeValue x) =
        cfg.relabel (scopeLabel (scopeOf x)) (scopeValue y) := by
  have hne (s : Scope) : scopeLabel s ≠ qmgrLabel ∧ scopeLabel s ≠ platformLabel := by
    cases s <;> exact ⟨by decide, by decide⟩
  obtain ⟨hqmgr, hplatform⟩ := hne (scopeOf x)
  unfold publicationLabels
  rw [← h]
  apply addMetaLabels_eq_iff
  · rw [lookup_labels_cons, if_neg hqmgr, lookup_labels_cons, if_neg hplatform,
      lookup_labels_cons, if_pos rfl]
  · rw [lookup_labels_cons, if_neg hqmgr, lookup_labels_cons, if_neg hplatform,
      lookup_labels_cons, if_pos rfl]
  · intro m hm
    simp only [lookup_labels_cons, if_neg hm]

/-- Two samples share a series exactly when they agree. -/
theorem seriesOf_eq_iff (cfg : Config) (plat : Bytes) (families : PublicationFamilies)
    (pubs : List PublicationMetric) (x y : PublicationMetric) :
    seriesOf cfg plat families pubs x = seriesOf cfg plat families pubs y ↔
      Agree cfg families pubs x y := by
  have hfamily (s t : Scope) (a b : Bytes) :
      publicationFamily s a = publicationFamily t b ↔ s = t ∧ a = b := by
    cases s <;> cases t <;> simp [publicationFamily]
  unfold seriesOf Agree
  rw [Prod.mk.injEq, hfamily, and_assoc]
  apply and_congr_right
  intro hscope
  rw [publicationLabels_eq_iff hscope]

/-- Samples that differ are kept apart if and only if no two of them agree. -/
theorem samplesApart_iff (cfg : Config) (p : Publisher) :
    SamplesApart cfg p ↔
      ∀ samples w, processSamples p.world = (.ok samples, w) →
        ∀ x ∈ samples, ∀ y ∈ samples, Differ x y →
          ¬ Agree cfg p.families (bare samples) x.toPublicationMetric y.toPublicationMetric := by
  unfold SamplesApart
  simp only [ne_eq, seriesOf_eq_iff]

/-! ## Two types of a queue -/

/-- An element that is published about puts and about gets. -/
def lockContention : Monitor.MonitorElement :=
  { elementId := 1, datatype := 1, description := ascii "lock contention"
    metricName := Monitor.descriptionToMetricName (ascii "lock contention") }

/-- A class with a type of puts and a type of gets. -/
def queueClasses : List Monitor.MonitorClass :=
  [{ className := ascii "STATQ"
     types :=
      [{ typeName := ascii "PUT", elements := [lockContention] },
        { typeName := ascii "GET", elements := [lockContention] }] }]

/-- The publication of a value of the element for the queue `Q1`. -/
def contentionMessage (v : Int32) : Bytes :=
  Pcf.PCFHeader.encode
    { type := 21, strucLength := 36, version := 1, command := 0, msgSeqNumber := 1, control := 1
      compCode := 0, reason := 0, parameterCount := 2 } ++
    (Pcf.encodeStructure Pcf.mqcftString Pcf.mqcaQName
        (encodeInt32 0 ++ (encodeInt32 2 ++ (ascii "Q1" ++ Pcf.filling 2))) ++
      (Monitor.Cell.integer 1 v).encode)

/-- A collector whose monitor has subscribed to both types; there is a publication on
each subscription. -/
def contendedQueue : Publisher :=
  { world :=
      { session :=
          { mqi :=
              { supply :=
                  [{ cc := .ok, message := contentionMessage 3 },
                    { cc := .failed, rc := mqrcNoMsgAvailable },
                    { cc := .ok, message := contentionMessage 5 },
                    { cc := .failed, rc := mqrcNoMsgAvailable }] }
            client := { connected := true } }
        monitor :=
          { classes := queueClasses
            typeElements := Monitor.addTypeElements ∅ queueClasses
            dataSubs :=
              [⟨ascii "STATQ", ascii "PUT", ⟨11, 12⟩⟩, ⟨ascii "STATQ", ascii "GET", ⟨13, 14⟩⟩] } } }

/-- The sample about puts or gets. -/
def contention (typeName : Bytes) (value : ℚ) : Sample :=
  { className := ascii "STATQ", typeName, objectName := ascii "Q1"
    metricName := ascii "lock_contention", value, isDelta := false
    description := ascii "lock contention" }

theorem processSamples_contendedQueue :
    (match (processSamples contendedQueue.world).1 with
      | .ok samples => decide (samples = [contention (ascii "PUT") 3, contention (ascii "GET") 5])
      | _ => false) = true := by decide +kernel

/-- The sample of the gets is written over that of the puts. -/
theorem not_samplesApart_contendedQueue :
    ¬ ∀ (cfg : Config) (p : Publisher), SamplesApart cfg p := by
  intro h
  have hrun := processSamples_contendedQueue
  rcases hsamples : processSamples contendedQueue.world with ⟨outcome, w⟩
  rw [hsamples] at hrun
  cases outcome with
  | ok samples =>
      have heq := of_decide_eq_true hrun
      refine h { queueManager := ascii "QM1" } contendedQueue samples w hsamples
        (contention (ascii "PUT") 3) (by simp [heq]) (contention (ascii "GET") 5) (by simp [heq])
        (.inr (.inl (by decide))) ((seriesOf_eq_iff ..).mpr ?_)
      rw [heq]
      exact ⟨by decide, by decide +kernel, rfl⟩
  | raised e => cases hrun
  | undefined => cases hrun
  | pending => cases hrun

end IbmmqExporter.Metrics
