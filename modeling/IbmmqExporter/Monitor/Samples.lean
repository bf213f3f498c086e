/-
  Monitor/Samples.lean --- samples with the descriptions of their elements.

  A `PublicationMetric` has the metric name of its element only, and two descriptions
  may come to one name.  A sample keeps the description too.

  WHAT THE FILE PROVES.  `process_publications` returns the samples without their
  descriptions.
-/
import IbmmqExporter.Monitor.ResourceMonitor

set_option autoImplicit false

namespace IbmmqExporter.Monitor

open Foundation Pcf Mq

/-- What is published about an element. -/
structure Sample extends PublicationMetric where
  description : Bytes
  deriving DecidableEq, Repr

/-- The samples of a publication, as `publishedMetrics` makes them. -/
def publishedSamples (sub : DataSub) (emap : ElementMap) (params : List PCFParam) :
    List Sample :=
  params.filterMap fun p =>
    if p.type ≠ mqcftInteger64 ∧ p.type ≠ mqcftInteger then none
    else
      (emap.lookup p.paramId).map fun elem =>
        { className := sub.className, typeName := sub.typeName,
          objectName := publishedQueue params, metricName := elem.metricName,
          value := normalizeValue p.int64Value elem.datatype,
          isDelta := decide (elem.datatype = delta), description := elem.description }

/-- The samples of the messages of one subscription. -/
def messageSamples (sub : DataSub) (emap : ElementMap) :
    List MQMessage → Parse (List Sample)
  | [] => return []
  | msg :: messages => do
      let here ←
        (if msg.data.length < pcfHeaderSize then return []
        else publishedSamples sub emap <$> paramsBehind 1 msg.data)
      let rest ← messageSamples sub emap messages
      return here ++ rest

/-- The loop of `process_publications`, with the descriptions. -/
def samplesOf : List DataSub → List Sample → Program (List Sample)
  | [], samples => return samples
  | sub :: subs, samples => do
      let messages ← session (getMessagesFromHandle sub.handles.hobj 500)
      let typeElements ← monitor ResourceMonitor.typeElements
      match typeElements.lookup (typeKey sub.className sub.typeName) with
      | none => samplesOf subs samples
      | some emap =>
          let found ← Effect.lift (messageSamples sub emap messages)
          samplesOf subs (samples ++ found)

/-- `process_publications`, with the descriptions. -/
def processSamples : Program (List Sample) := do
  let subs ← monitor ResourceMonitor.dataSubs
  samplesOf subs []

/-! ## Without the descriptions -/

/-- The samples without their descriptions. -/
def bare (samples : List Sample) : List PublicationMetric :=
  samples.map Sample.toPublicationMetric

theorem publishedMetrics_eq (sub : DataSub) (emap : ElementMap) (params : List PCFParam) :
    publishedMetrics sub emap params = bare (publishedSamples sub emap params) := by
  unfold publishedMetrics publishedSamples bare
  rw [List.map_filterMap]
  apply List.filterMap_congr
  intro p _
  split
  · rfl
  · rw [Option.map_map]
    rfl

theorem messageMetrics_eq (sub : DataSub) (emap : ElementMap) (messages : List MQMessage) :
    messageMetrics sub emap messages = bare <$> messageSamples sub emap messages := by
  induction messages with
  | nil => rfl
  | cons msg messages ih =>
      unfold messageMetrics messageSamples
      rw [ih]
      split
      · cases messageSamples sub emap messages <;> rfl
      · cases paramsBehind 1 msg.data with
        | ok params =>
            cases messageSamples sub emap messages with
            | ok rest => simp [publishedMetrics_eq, bare]
            | raised e => rfl
            | undefined => rfl
            | pending => rfl
        | raised e => rfl
        | undefined => rfl
        | pending => rfl

theorem publicationsOf_eq (subs : List DataSub) (samples : List Sample) :
    publicationsOf subs (bare samples) = bare <$> samplesOf subs samples := by
  induction subs generalizing samples with
  | nil => rfl
  | cons sub subs ih =>
      unfold publicationsOf samplesOf
      rw [map_bind]
      apply bind_congr
      intro messages
      rw [map_bind]
      apply bind_congr
      intro typeElements
      cases typeElements.lookup (typeKey sub.className sub.typeName) with
      | none => exact ih samples
      | some emap =>
          have happend (found : List Sample) :
              bare samples ++ bare found = bare (samples ++ found) := (List.map_append ..).symm
          dsimp only
          rw [messageMetrics_eq, map_bind]
          cases messageSamples sub emap messages with
          | ok found =>
              show publicationsOf subs (bare samples ++ bare found) = _
              rw [happend]
              exact ih (samples ++ found)
          | raised e => rfl
          | undefined => rfl
          | pending => rfl

/-- `process_publications` returns the samples, without their descriptions. -/
theorem processPublications_eq : processPublications = bare <$> processSamples := by
  unfold processPublications processSamples
  rw [map_bind]
  apply bind_congr
  intro subs
  exact publicationsOf_eq subs []

end IbmmqExporter.Monitor
