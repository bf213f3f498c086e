/-
  Monitor/Course.lean --- how far the methods of the monitor get.

  The monitor talks to the queue manager through a few methods of its client, and
  assigns its own fields between them.

  WHAT THE FILE PROVES.  A relation between the monitor's worlds that these methods and
  assignments keep to is one that the discovery, the subscriptions and the publications
  keep to.
-/
import IbmmqExporter.Foundation.Course
import IbmmqExporter.Monitor.ResourceMonitor

set_option autoImplicit false

namespace IbmmqExporter.Monitor

open Foundation Effect Mq

variable {R : World → World → Prop} [Std.Refl R] [IsTrans World R]

/-! ## Discovery -/

section Discovery

variable (hget : ∀ topic, Within R (session (subscribeAndGet topic)))
include hget

theorem within_metadata_of (least : Int) (topic : Bytes) : Within R (metadata least topic) := by
  refine (hget topic).bind fun msg => ?_
  cases msg with
  | none => exact within_pure none
  | some msg => exact within_ite (within_pure none) ((within_lift _).map some)

theorem within_addTypes_of (params : List PCFParam) (cls : MonitorClass) :
    Within R (addTypes params cls) := by
  induction params generalizing cls with
  | nil => exact within_pure cls
  | cons p params ih =>
      unfold addTypes
      refine within_ite (ih cls) ?_
      dsimp only
      refine within_ite (ih cls) (Within.bind ?_ fun mtype => ih _)
      refine (within_metadata_of hget 1 _).bind fun params => ?_
      cases params with
      | none => exact within_pure _
      | some params => exact within_pure _

theorem within_discoverTypes_of (cls : MonitorClass) : Within R (discoverTypes cls) := by
  refine within_ite (within_pure none) ((within_metadata_of hget 1 _).bind fun params => ?_)
  cases params with
  | none => exact within_pure none
  | some params => exact (within_addTypes_of hget params cls).bind fun _ => within_pure _

variable (hassign : ∀ f : ResourceMonitor → ResourceMonitor,
  (∀ m, (f m).dataSubs = m.dataSubs) → Within R (assign f))
include hassign

theorem within_addClasses_of (params : List PCFParam) : Within R (addClasses params) := by
  induction params with
  | nil => exact within_pure ()
  | cons p params ih =>
      unfold addClasses
      refine within_ite ih ?_
      dsimp only
      refine within_ite ih ((within_discoverTypes_of hget _).bind fun found => ?_)
      cases found with
      | none => exact ih
      | some cls =>
          refine Within.bind (hassign _ ?_) fun _ => ih
          exact fun _ => rfl

/-- The discovery leaves the subscriptions alone. -/
theorem within_discover_of : Within R discover := by
  have hclasses : Within R discoverClasses := by
    refine (within_gets _).bind fun qmgrName => (within_metadata_of hget 36 _).bind fun params => ?_
    cases params with
    | none => exact within_pure false
    | some params =>
        exact (within_addClasses_of hget hassign params).bind fun _ =>
          (within_gets _).bind fun _ => within_pure _
  refine hclasses.bind fun found => within_ite (within_pure false) ?_
  refine Within.bind (hassign _ ?_) fun _ => within_pure true
  exact fun _ => rfl

end Discovery

/-! ## Subscriptions -/

theorem within_createSubscriptions_of
    (hsub : ∀ className typeName topic, Within R (subscribeData className typeName topic))
    (queues : List Bytes) : Within R (createSubscriptions queues) := by
  refine (within_gets _).bind fun classes => within_ite (within_pure false) ?_
  refine (within_gets _).bind fun before => ?_
  refine (within_forEach fun t _ => hsub t.1 t.2.1 t.2.2).bind fun _ => ?_
  exact (within_gets _).bind fun _ => within_pure _

/-! ## Publications -/

theorem within_processPublications_of
    (hread : ∀ hobj, Within R (session (getMessagesFromHandle hobj 500))) :
    Within R processPublications := by
  have hloop (subs : List DataSub) (metrics : List PublicationMetric) :
      Within R (publicationsOf subs metrics) := by
    induction subs generalizing metrics with
    | nil => exact within_pure metrics
    | cons sub subs ih =>
        refine (hread _).bind fun messages => (within_gets _).bind fun typeElements => ?_
        split
        · exact ih _
        · exact (within_lift _).bind fun found => ih _
  exact (within_gets _).bind fun subs => hloop subs []

end IbmmqExporter.Monitor
