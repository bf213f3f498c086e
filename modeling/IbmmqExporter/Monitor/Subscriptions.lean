/-
  Monitor/Subscriptions.lean --- the subscriptions of `create_subscriptions`.

  For a type whose topic has a place for the queue, `create_subscriptions` subscribes
  once for each queue.  A subscription is live as long as the queue manager has not
  been told to end it.

  WHAT THE FILE PROVES.  If no call is refused, the queues with a live subscription for
  such a type are the queues that `create_subscriptions` has been called with.
-/
import IbmmqExporter.Monitor.ResourceMonitor
import IbmmqExporter.Mq.Traffic

set_option autoImplicit false

namespace IbmmqExporter.Monitor

open Foundation Effect Mq

/-! ## Types with a topic for each queue -/

/-- A type whose topic has a place for the queue: its names, and what stands before and
behind that place. -/
structure QueueTopic where
  className : Bytes
  typeName : Bytes
  before : Bytes
  behind : Bytes
  deriving DecidableEq, Repr

/-- The topic of a queue. -/
def QueueTopic.topic (k : QueueTopic) (queue : Bytes) : Bytes := k.before ++ queue ++ k.behind

theorem QueueTopic.topic_inj {k : QueueTopic} {q q' : Bytes} (h : k.topic q = k.topic q') :
    q = q' := List.append_cancel_left (List.append_cancel_right h)

/-- The types for which `create_subscriptions` subscribes once for each queue. -/
def queueTopics (classes : List MonitorClass) : List QueueTopic :=
  classes.flatMap fun cls =>
    if cls.className = ascii "STATAPP" then []
    else
      cls.types.filterMap fun t =>
        (splitAtObject t.objectTopic).map fun parts =>
          { className := cls.className, typeName := t.typeName, before := parts.1
            behind := parts.2 }

/-- A queue has a live subscription for a type. -/
def Watched (live : Subscriptions) (m : ResourceMonitor) (k : QueueTopic) (queue : Bytes) : Prop :=
  ∃ sub ∈ m.dataSubs, sub.className = k.className ∧ sub.typeName = k.typeName ∧
    (sub.handles.hsub, k.topic queue) ∈ live

instance (live : Subscriptions) (m : ResourceMonitor) (k : QueueTopic) (queue : Bytes) :
    Decidable (Watched live m k queue) :=
  inferInstanceAs (Decidable (∃ sub ∈ m.dataSubs, sub.className = k.className ∧
    sub.typeName = k.typeName ∧ (sub.handles.hsub, k.topic queue) ∈ live))

/-- No two types with different topics have the same names. -/
def Named (classes : List MonitorClass) : Prop :=
  ∀ cls ∈ classes, ∀ t ∈ cls.types, ∀ cls' ∈ classes, ∀ t' ∈ cls'.types,
    cls.className = cls'.className → t.typeName = t'.typeName → t.objectTopic = t'.objectTopic

instance (classes : List MonitorClass) : Decidable (Named classes) :=
  inferInstanceAs (Decidable (∀ cls ∈ classes, ∀ t ∈ cls.types, ∀ cls' ∈ classes,
    ∀ t' ∈ cls'.types, cls.className = cls'.className → t.typeName = t'.typeName →
      t.objectTopic = t'.objectTopic))

/-! ## What is subscribed -/

/-- A subscription is the one that was wanted, and live. -/
def Backs (live : Subscriptions) (sub : DataSub) (wanted : Bytes × Bytes × Bytes) : Prop :=
  sub.className = wanted.1 ∧ sub.typeName = wanted.2.1 ∧ (sub.handles.hsub, wanted.2.2) ∈ live

/-- The subscriptions are those that were wanted, and live. -/
structure Fulfils (live : Subscriptions) (subs : List DataSub)
    (wanted : List (Bytes × Bytes × Bytes)) : Prop where
  wanted_of : ∀ sub ∈ subs, ∃ w ∈ wanted, Backs live sub w
  sub_of : ∀ w ∈ wanted, ∃ sub ∈ subs, Backs live sub w

section Wanted

variable {queues : List Bytes} {classes : List MonitorClass} {k : QueueTopic}

theorem mem_queueTopics : k ∈ queueTopics classes ↔
    ∃ cls ∈ classes, cls.className ≠ ascii "STATAPP" ∧ cls.className = k.className ∧
      ∃ t ∈ cls.types, t.typeName = k.typeName ∧
        splitAtObject t.objectTopic = some (k.before, k.behind) := by
  unfold queueTopics
  constructor
  · intro h
    obtain ⟨cls, hcls, hk⟩ := List.mem_flatMap.mp h
    split at hk
    · cases hk
    · next hstat =>
        obtain ⟨t, ht, hsome⟩ := List.mem_filterMap.mp hk
        obtain ⟨parts, hparts, rfl⟩ := Option.map_eq_some_iff.mp hsome
        exact ⟨cls, hcls, hstat, rfl, t, ht, rfl, hparts⟩
  · rintro ⟨cls, hcls, hstat, hclass, t, ht, htype, hparts⟩
    refine List.mem_flatMap.mpr ⟨cls, hcls, ?_⟩
    rw [if_neg hstat]
    refine List.mem_filterMap.mpr ⟨t, ht, ?_⟩
    rw [hparts, hclass, htype]
    rfl

/-- The topics of such a type. -/
theorem typeTopics_of_split {objectTopic before behind : Bytes}
    (h : splitAtObject objectTopic = some (before, behind)) :
    typeTopics queues objectTopic = queues.map fun q => before ++ q ++ behind := by
  unfold typeTopics
  rw [if_neg, h]
  rintro rfl
  cases h

theorem mem_wantedTopics {className typeName topic : Bytes} :
    (className, typeName, topic) ∈ wantedTopics queues classes ↔
      ∃ cls ∈ classes, cls.className ≠ ascii "STATAPP" ∧ cls.className = className ∧
        ∃ t ∈ cls.types, t.typeName = typeName ∧ topic ∈ typeTopics queues t.objectTopic := by
  unfold wantedTopics
  constructor
  · intro h
    obtain ⟨cls, hcls, hw⟩ := List.mem_flatMap.mp h
    split at hw
    · cases hw
    · next hstat =>
        obtain ⟨t, ht, hw⟩ := List.mem_flatMap.mp hw
        obtain ⟨topic', htopic, heq⟩ := List.mem_map.mp hw
        cases heq
        exact ⟨cls, hcls, hstat, rfl, t, ht, rfl, htopic⟩
  · rintro ⟨cls, hcls, hstat, rfl, t, ht, rfl, htopic⟩
    refine List.mem_flatMap.mpr ⟨cls, hcls, ?_⟩
    rw [if_neg hstat]
    exact List.mem_flatMap.mpr ⟨t, ht, List.mem_map.mpr ⟨topic, htopic, rfl⟩⟩

/-- Among the wanted topics of a type are those of the queues, and no others. -/
theorem mem_wantedTopics_queue (hnamed : Named classes) (hk : k ∈ queueTopics classes)
    (q : Bytes) :
    (k.className, k.typeName, k.topic q) ∈ wantedTopics queues classes ↔ q ∈ queues := by
  obtain ⟨cls, hcls, hstat, hclass, t, ht, htype, hparts⟩ := mem_queueTopics.mp hk
  rw [mem_wantedTopics]
  constructor
  · rintro ⟨cls', hcls', -, hclass', t', ht', htype', htopic⟩
    have hsame : t'.objectTopic = t.objectTopic :=
      hnamed cls' hcls' t' ht' cls hcls t ht (hclass'.trans hclass.symm) (htype'.trans htype.symm)
    rw [hsame, typeTopics_of_split hparts] at htopic
    obtain ⟨q', hq', heq⟩ := List.mem_map.mp htopic
    rw [← QueueTopic.topic_inj (k := k) heq]
    exact hq'
  · intro hq
    refine ⟨cls, hcls, hstat, hclass, t, ht, htype, ?_⟩
    rw [typeTopics_of_split hparts]
    exact List.mem_map.mpr ⟨q, hq, rfl⟩

/-- If the wanted subscriptions are live, the queues with one are those that were
wanted. -/
theorem watched_iff {live : Subscriptions} {m : ResourceMonitor}
    (hsubs : Fulfils live m.dataSubs (wantedTopics queues classes))
    (hdistinct : (live.map Prod.fst).Nodup) (hnamed : Named classes)
    (hk : k ∈ queueTopics classes) (q : Bytes) : Watched live m k q ↔ q ∈ queues := by
  rw [← mem_wantedTopics_queue hnamed hk]
  constructor
  · rintro ⟨sub, hsub, hclass, htype, hlive⟩
    obtain ⟨⟨className, typeName, topic⟩, hwanted, hclass', htype', hlive'⟩ :=
      hsubs.wanted_of sub hsub
    have htopic : k.topic q = topic :=
      congrArg Prod.snd (List.inj_on_of_nodup_map hdistinct hlive hlive' rfl)
    rw [← hclass, ← htype, hclass', htype', htopic]
    exact hwanted
  · intro hwanted
    obtain ⟨sub, hsub, hclass, htype, hlive⟩ := hsubs.sub_of _ hwanted
    exact ⟨sub, hsub, hclass, htype, hlive⟩

end Wanted

/-! ## What `discover` leaves alone -/

section Discover

variable {γ : Type} {f : World → γ}
  (hget : ∀ topic, Preserves f (session (subscribeAndGet topic)))
  (hset : ∀ g : ResourceMonitor → ResourceMonitor,
    (∀ m, (g m).dataSubs = m.dataSubs) → Preserves f (assign g))

include hget

theorem preserves_metadata_of (least : Int) (topic : Bytes) :
    Preserves f (metadata least topic) := by
  refine (hget topic).bind fun msg => ?_
  cases msg with
  | none => exact preserves_pure none
  | some msg => exact preserves_ite (preserves_pure none) ((preserves_lift _).map some)

theorem preserves_addTypes_of (params : List PCFParam) (cls : MonitorClass) :
    Preserves f (addTypes params cls) := by
  have helements (mtype : MonitorType) (topic : Bytes) :
      Preserves f (discoverElements mtype topic) := by
    refine (preserves_metadata_of hget _ _).bind fun params => ?_
    cases params with
    | none => exact preserves_pure _
    | some params => exact preserves_pure _
  induction params generalizing cls with
  | nil => exact preserves_pure cls
  | cons p params ih =>
      unfold addTypes
      refine preserves_ite (ih _) (preserves_ite (ih _) ?_)
      exact (helements _ _).bind fun mtype => ih _

include hset

theorem preserves_addClasses_of (params : List PCFParam) : Preserves f (addClasses params) := by
  have htypes (cls : MonitorClass) : Preserves f (discoverTypes cls) := by
    refine preserves_ite (preserves_pure none) ?_
    refine (preserves_metadata_of hget _ _).bind fun params => ?_
    cases params with
    | none => exact preserves_pure none
    | some params => exact (preserves_addTypes_of hget _ _).bind fun cls => preserves_pure _
  induction params with
  | nil => exact preserves_pure ()
  | cons p params ih =>
      unfold addClasses
      refine preserves_ite ih (preserves_ite ih ((htypes _).bind fun found => ?_))
      cases found with
      | none => exact ih
      | some cls => exact Preserves.bind (hset _ (by exact fun _ => rfl)) fun _ => ih

/-- `discover` changes the client by `subscribe_and_get`, and of the monitor not the
subscriptions. -/
theorem preserves_discover_of : Preserves f discover := by
  have hclasses : Preserves f discoverClasses := by
    refine (preserves_gets _).bind fun qmgrName => ?_
    refine (preserves_metadata_of hget _ _).bind fun params => ?_
    cases params with
    | none => exact preserves_pure false
    | some params =>
        exact (preserves_addClasses_of hget hset _).bind fun _ => (preserves_gets _).bind fun _ =>
          preserves_pure _
  refine hclasses.bind fun found => preserves_ite (preserves_pure false) ?_
  exact Preserves.bind (hset _ (by exact fun _ => rfl)) fun _ => preserves_pure true

end Discover

/-! ## Subscribing -/

section Subscribing

variable {queues : List Bytes} {w : World}

theorem Backs.mono {live live' : Subscriptions} {sub : DataSub} {wanted : Bytes × Bytes × Bytes}
    (h : Backs live sub wanted) (hsub : live ⊆ live') : Backs live' sub wanted :=
  ⟨h.1, h.2.1, hsub h.2.2⟩

/-- The body of the loops makes one subscription more, if no call is refused. -/
theorem wp_subscribeData_live {className typeName topic : Bytes}
    (hconnected : w.session.client.connected = true) :
    wp (subscribeData className typeName topic)
      (fun _ w' => w'.session.client.connected = true ∧ w'.monitor.classes = w.monitor.classes ∧
        (.refused ∉ w'.session.log → .refused ∉ w.session.log ∧
          liveSubscriptions w.session.log ⊆ liveSubscriptions w'.session.log ∧
          ∃ sub, w'.monitor.dataSubs = w.monitor.dataSubs ++ [sub] ∧
            Backs (liveSubscriptions w'.session.log) sub (className, typeName, topic)))
      (fun _ _ => False) w := by
  unfold subscribeData session
  rw [wp_bind, wp_zoom]
  refine wp_mono (wp_createSubscription_live hconnected) (fun sub s' hs' => ?_) fun _ _ h => h
  obtain ⟨hclient, hmade⟩ := hs'
  have hstill : s'.client.connected = true := by rw [hclient, hconnected]
  cases sub with
  | none =>
      refine ⟨hstill, rfl, fun h => ?_⟩
      obtain ⟨-, handles, hsome, -⟩ := hmade h
      cases hsome
  | some handles =>
      refine ⟨hstill, rfl, fun h => ?_⟩
      obtain ⟨hbefore, handles', hsome, hlive⟩ := hmade h
      obtain rfl := Option.some.inj hsome
      refine ⟨hbefore, ?_, ⟨className, typeName, handles⟩, rfl, rfl, rfl, ?_⟩
      · intro sub hsub
        exact hlive ▸ List.mem_append_left _ hsub
      · exact hlive ▸ List.mem_append_right _ (List.mem_singleton_self _)

/-- The loops make the subscriptions that are wanted. -/
theorem wp_subscribeAll {wanted : List (Bytes × Bytes × Bytes)}
    (hconnected : w.session.client.connected = true) :
    wp (forEach wanted fun t => subscribeData t.1 t.2.1 t.2.2)
      (fun _ w' => w'.monitor.classes = w.monitor.classes ∧
        (.refused ∉ w'.session.log → .refused ∉ w.session.log ∧
          liveSubscriptions w.session.log ⊆ liveSubscriptions w'.session.log ∧
          ∃ subs, w'.monitor.dataSubs = w.monitor.dataSubs ++ subs ∧
            Fulfils (liveSubscriptions w'.session.log) subs wanted))
      (fun _ _ => False) w := by
  induction wanted generalizing w with
  | nil =>
      refine ⟨rfl, fun h => ⟨h, List.Subset.refl _, [], (List.append_nil _).symm, ?_⟩⟩
      exact ⟨fun _ h => absurd h List.not_mem_nil, fun _ h => absurd h List.not_mem_nil⟩
  | cons t wanted ih =>
      rw [forEach_cons, wp_bind]
      refine wp_mono (wp_subscribeData_live hconnected) (fun _ w₁ h₁ => ?_) fun _ _ h => h
      obtain ⟨hconnected₁, hclasses₁, hmade₁⟩ := h₁
      refine wp_mono (ih hconnected₁) (fun _ w₂ h₂ => ?_) fun _ _ h => h
      obtain ⟨hclasses₂, hmade₂⟩ := h₂
      refine ⟨hclasses₂.trans hclasses₁, fun h => ?_⟩
      obtain ⟨hrefused₁, hlive₂, subs, hsubs, hfulfils⟩ := hmade₂ h
      obtain ⟨hrefused, hlive₁, sub, hsub, hbacks⟩ := hmade₁ hrefused₁
      refine ⟨hrefused, List.Subset.trans hlive₁ hlive₂, sub :: subs, ?_, ?_, ?_⟩
      · rw [hsubs, hsub, List.append_assoc]
        rfl
      · rw [List.forall_mem_cons]
        refine ⟨⟨t, List.mem_cons_self, hbacks.mono hlive₂⟩, fun sub' hsub' => ?_⟩
        obtain ⟨t', ht', hbacks'⟩ := hfulfils.wanted_of sub' hsub'
        exact ⟨t', List.mem_cons_of_mem t ht', hbacks'⟩
      · rw [List.forall_mem_cons]
        refine ⟨⟨sub, List.mem_cons_self, hbacks.mono hlive₂⟩, fun t' ht' => ?_⟩
        obtain ⟨sub', hsub', hbacks'⟩ := hfulfils.sub_of t' ht'
        exact ⟨sub', List.mem_cons_of_mem sub hsub', hbacks'⟩

/-- What `create_subscriptions` leaves of a monitor without subscriptions. -/
theorem wp_createSubscriptions_live (hconnected : w.session.client.connected = true)
    (hnone : w.monitor.dataSubs = []) :
    wp (createSubscriptions queues)
      (fun _ w' => .refused ∉ w'.session.log →
        Fulfils (liveSubscriptions w'.session.log) w'.monitor.dataSubs
          (wantedTopics queues w'.monitor.classes))
      (fun _ _ => False) w := by
  unfold createSubscriptions monitor
  rw [wp_bind, wp_gets, wp_ite]
  split
  · next hclasses =>
      intro _
      rw [hnone, hclasses]
      exact ⟨fun _ h => absurd h List.not_mem_nil, fun _ h => absurd h List.not_mem_nil⟩
  · rw [wp_bind, wp_gets, wp_bind]
    refine wp_mono (wp_subscribeAll hconnected) (fun _ w' hw' => ?_) fun _ _ h => h
    obtain ⟨hclasses, hmade⟩ := hw'
    intro h
    obtain ⟨-, -, subs, hsubs, hfulfils⟩ := hmade h
    rw [hsubs, hnone, hclasses]
    exact hfulfils

/-- Without a connection `discover` finds nothing. -/
theorem discover_down (hdown : w.session.client.connected = false) :
    discover w = (.ok false, w) := by
  have hmetadata (least : Int) (topic : Bytes) : metadata least topic w = (.ok none, w) := by
    unfold metadata session
    have hnothing : subscribeAndGet topic w.session = (.ok none, w.session) := by
      unfold subscribeAndGet
      rw [client_bind, hdown]
      rfl
    have hzoom : zoom World.session (fun s w => { w with session := s }) (subscribeAndGet topic) w =
        (.ok none, w) := by
      rw [zoom_apply, hnothing]
    rw [bind_of_ok hzoom]
    rfl
  have hclasses : discoverClasses w = (.ok false, w) := by
    unfold discoverClasses
    show (metadata 36 _ >>= _) w = _
    rw [bind_of_ok (hmetadata _ _)]
    rfl
  unfold discover
  rw [bind_of_ok hclasses]
  rfl

/-- `discover` makes no subscription of the monitor's, and finds something only with a
connection. -/
theorem wp_discover_live (hclient : ∀ topic, Preserves Session.client (subscribeAndGet topic)) :
    wp discover
      (fun found w' => w'.monitor.dataSubs = w.monitor.dataSubs ∧
        (found = true → w'.session.client.connected = true))
      (fun _ _ => True) w := by
  cases hconnected : w.session.client.connected with
  | false =>
      unfold wp
      rw [discover_down hconnected]
      exact ⟨rfl, nofun⟩
  | true =>
      have hkept : Preserves (fun w : World => (w.monitor.dataSubs, w.session.client)) discover :=
        preserves_discover_of
          (fun topic w => congrArg (Prod.mk w.monitor.dataSubs) (hclient topic w.session))
          fun g hg w => congrArg (Prod.mk · w.session.client) (hg w.monitor)
      refine wp_mono (hkept.within w) (fun found w' h => ?_) fun _ _ _ => trivial
      obtain ⟨hsubs, hsame⟩ := Prod.mk.inj h
      exact ⟨hsubs, fun _ => hsame ▸ hconnected⟩

end Subscribing

end IbmmqExporter.Monitor
