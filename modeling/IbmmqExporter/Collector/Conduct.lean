/-
  Collector/Conduct.lean --- the calls of the programs of the collector.

  The handles that the fields of the client and of the monitor hold are open.  So what
  the programs read, close and delete by them is what may be read, closed and deleted.

  WHAT THE FILE PROVES.  Every program that the collector runs between two cycles, the
  destructor, and those of a cycle that use such handles, go on with calls that are
  allowed, and what the fields hold behind them is open again.
-/
import IbmmqExporter.Collector.Ownership
import IbmmqExporter.Monitor.Course
import IbmmqExporter.Mq.Exchanges

set_option autoImplicit false

namespace IbmmqExporter.Collector

open Foundation Effect Mq
open Monitor (DataSub ResourceMonitor World)

variable {readable : List Bytes}

/-! ## The client -/

/-- What one of the two queues has open. -/
def queueOpens (c : MQClient) (queueType : QueueType) : Open :=
  if c.isOpen queueType = true then {(c.queue queueType, .read)} else 0

/-- What the fields of the client have open. -/
def clientOpens (c : MQClient) : Open :=
  opensAll c.subscriptions + (queueOpens c .stats + queueOpens c .accounting)

/-- The calls between two sessions are allowed, and turn what the client has open in the
one into what it has open in the other. -/
abbrev Lawful (readable : List Bytes) : Session → Session → Prop :=
  Turning (Allowed readable) Session.log fun s => clientOpens s.client

section Client

variable {α : Type} {s s' : Session} {new : List MqiEvent}

/-- Calls that are allowed, of a client whose handles stay. -/
theorem lawful_of_turns (hlog : s'.log = s.log ++ new)
    (hnew : Turns (Allowed readable) (clientOpens s.client) new (clientOpens s.client))
    (hkept : clientOpens s'.client = clientOpens s.client) : Lawful readable s s' :=
  ⟨new, hlog, hnew.weaken (le_of_eq hkept)⟩

theorem preserves_opens_of {c : Method α} (hc : Preserves Session.client c) :
    Preserves (fun s => clientOpens s.client) c := hc.comp clientOpens

theorem preserves_opens_update {f : MQClient → MQClient}
    (h : ∀ c, clientOpens (f c) = clientOpens c) :
    Preserves (fun s => clientOpens s.client) (update f) := fun s => h s.client

/-- Where the calls of a method depend on what the client has open. -/
theorem wp_lawful {c : Method α}
    (hc : Tells c
      (fun _ new => Turns (Allowed readable) (clientOpens s.client) new (clientOpens s.client))
      fun new => Turns (Allowed readable) (clientOpens s.client) new (clientOpens s.client))
    (hkept : Preserves (fun s => clientOpens s.client) c) :
    wp c (fun _ => Lawful readable s) (fun _ => Lawful readable s) s := by
  have hstate := wp_of_state
    (R := fun s' : Session => clientOpens s'.client = clientOpens s.client) (hkept s)
  refine wp_mono (wp_and (hc s) hstate) ?_ ?_
  · rintro _ s' ⟨⟨new, hlog, hnew⟩, hsame⟩
    exact lawful_of_turns hlog hnew hsame
  · rintro _ s' ⟨⟨new, hlog, hnew⟩, hsame⟩
    exact lawful_of_turns hlog hnew hsame

/-- A method that makes exchanges, and leaves the handles of the client. -/
theorem within_lawful {c : Method α} (hc : Within Converses c)
    (hkept : Preserves (fun s => clientOpens s.client) c) : Within (Lawful readable) c := by
  intro s
  have hstate := wp_of_state
    (R := fun s' : Session => clientOpens s'.client = clientOpens s.client) (hkept s)
  have hturns (xs : List Exchange) : Turns (Allowed readable) (clientOpens s.client)
      (xs.flatMap Exchange.events) (clientOpens s.client) :=
    turns_of_path fun rest => path_exchanges xs _
  refine wp_mono (wp_and (hc s) hstate) ?_ ?_
  · rintro _ s' ⟨⟨xs, hlog⟩, hsame⟩
    exact lawful_of_turns hlog (hturns xs) hsame
  · rintro _ s' ⟨⟨xs, hlog⟩, hsame⟩
    exact lawful_of_turns hlog (hturns xs) hsame

theorem within_lawful_getQueueInfo (queueName : Bytes) :
    Within (Lawful readable) (getQueueInfo queueName) :=
  within_lawful (within_converses_getQueueInfo queueName)
    (preserves_opens_of (preserves_getQueueInfo queueName))

theorem within_lawful_sendPcfCommand {cmd : Bytes} (hcmd : IsInquiry cmd) :
    Within (Lawful readable) (sendPcfCommand cmd) :=
  within_lawful (within_converses_sendPcfCommand hcmd)
    (preserves_opens_of (preserves_sendPcfCommand cmd))

theorem within_lawful_discoverQueues (pattern : Bytes) :
    Within (Lawful readable) (discoverQueues pattern) :=
  within_lawful (within_converses_discoverQueues pattern)
    (preserves_opens_of (preserves_discoverQueues pattern))

theorem within_lawful_subscribeAndGet (topic : Bytes) :
    Within (Lawful readable) (subscribeAndGet topic) :=
  within_lawful (within_converses_subscribeAndGet topic)
    (preserves_opens_of (preserves_subscribeAndGet topic))

theorem within_lawful_connect : Within (Lawful readable) connect := by
  have hplatform : Preserves (fun s => clientOpens s.client) detectPlatform := by
    refine (preserves_opens_of (preserves_mqi _)).bind fun r => ?_
    refine preserves_ite (preserves_opens_update fun _ => rfl) ?_
    refine (preserves_opens_of (preserves_mqi _)).bind fun inq => ?_
    refine (preserves_opens_of (preserves_mqi _)).bind fun _ => ?_
    exact preserves_ite (preserves_opens_update fun _ => rfl)
      (preserves_opens_update fun _ => rfl)
  refine within_lawful within_converses_connect ?_
  refine (preserves_gets _).bind fun connected => preserves_ite (preserves_pure ()) ?_
  refine (preserves_gets _).bind fun config => ?_
  refine (preserves_opens_of (preserves_mqi _)).bind fun r => preserves_ite ?_ ?_
  · exact preserves_raise _
  · refine Preserves.bind (preserves_opens_update ?_) fun _ => hplatform
    exact fun _ => rfl

/-- A queue that is opened and kept, in place of what the fields held. -/
theorem within_lawful_opening {queueName what : Bytes} {f : MQHOBJ → MQClient → MQClient}
    (hq : queueName ∈ readable)
    (hf : ∀ hobj c, clientOpens (f hobj c) ≤ {(hobj, .read)} + clientOpens c) :
    Within (Lawful readable) (do
        let connected ← Mq.client MQClient.connected
        if ¬ connected then throwRuntimeError what
        else
          let hobj ← openQueue queueName readOptions
          update (f hobj)) := by
  refine (within_gets _).bind fun connected => within_ite (within_raise _) fun s => ?_
  have hclient := wp_of_state (R := fun s' : Session => s'.client = s.client)
    (preserves_openQueue queueName readOptions s)
  refine wp_seq (wp_mono (wp_and (tells_openQueue s) hclient) (fun _ _ h => h) ?_) ?_
  · rintro _ s' ⟨⟨new, hlog, rfl⟩, hsame⟩
    exact lawful_of_turns hlog (turns_spoken (spoken_of_eq .refused rfl) _)
      (congrArg clientOpens hsame)
  · rintro _ s' ⟨⟨new, hlog, h, rfl, rfl⟩, hsame⟩
    refine ⟨_, hlog, Turns.weaken (turns_of_path fun rest => ?_) (hf h s'.client)⟩
    rw [hsame, add_assoc, Multiset.singleton_add]
    exact .single (.read _ hq h)

theorem within_lawful_openStatsQueue {queueName : Bytes} (hq : queueName ∈ readable) :
    Within (Lawful readable) (openStatsQueue queueName) := by
  refine within_lawful_opening hq fun hobj c => ?_
  refine Multiset.le_iff_exists_add.mpr ⟨queueOpens c .stats, ?_⟩
  show {(hobj, Access.read)} +
      (opensAll c.subscriptions + (queueOpens c .stats + queueOpens c .accounting)) =
    opensAll c.subscriptions + ({(hobj, Access.read)} + queueOpens c .accounting) +
      queueOpens c .stats
  ac_rfl

theorem within_lawful_openAccountingQueue {queueName : Bytes} (hq : queueName ∈ readable) :
    Within (Lawful readable) (openAccountingQueue queueName) := by
  refine within_lawful_opening hq fun hobj c => ?_
  refine Multiset.le_iff_exists_add.mpr ⟨queueOpens c .accounting, ?_⟩
  show {(hobj, Access.read)} +
      (opensAll c.subscriptions + (queueOpens c .stats + queueOpens c .accounting)) =
    opensAll c.subscriptions + (queueOpens c .stats + {(hobj, Access.read)}) +
      queueOpens c .accounting
  ac_rfl

/-- A subscription that is made and kept. -/
theorem within_lawful_subscribeToTopic (topic : Bytes) :
    Within (Lawful readable) (subscribeToTopic topic) := by
  intro s
  rw [subscribeToTopic_eq]
  have hclient := wp_of_state (R := fun s' : Session => s'.client = s.client)
    (preserves_createSubscription topic s)
  have hmade := @tells_createSubscription readable (fun _ => False) topic
    (clientOpens s.client) s
  refine wp_seq (wp_mono (wp_and hmade hclient) (fun _ _ h => h) ?_) ?_
  · rintro _ s' ⟨⟨_, _, h⟩, -⟩
    exact h.elim
  · rintro sub s' ⟨⟨new, hlog, hnew⟩, hsame⟩
    cases sub with
    | none =>
        refine ⟨new, hlog, hnew.weaken ?_⟩
        show clientOpens s'.client ≤ 0 + clientOpens s.client
        rw [hsame, zero_add]
    | some handles =>
        refine ⟨new, hlog, hnew.weaken (le_of_eq ?_)⟩
        show opensAll (s'.client.subscriptions ++ [handles]) +
          (queueOpens s'.client .stats + queueOpens s'.client .accounting) = _
        rw [opensAll_append, hsame]
        show opensAll s.client.subscriptions + (handles.opens + 0) + _ =
          handles.opens + (opensAll s.client.subscriptions + _)
        rw [add_zero]
        ac_rfl

/-! ### Messages -/

/-- What is read by a handle that may be read from. -/
theorem turns_reads {a : Open} {hobj : MQHOBJ} (hopen : (hobj, .read) ∈ a ∨ (hobj, .own) ∈ a)
    (hnew : ∀ e ∈ new, e.readsFrom hobj = true) : Turns (Allowed readable) a new a :=
  turns_of_path fun _ => path_reads
    (hopen.imp (fun h => Multiset.mem_add.mpr (Or.inl h)) fun h => Multiset.mem_add.mpr (Or.inl h))
    hnew

/-- What is asked of one of the two queues. -/
theorem tells_getMessageFrom (hobj : MQHOBJ) (queueType : QueueType) :
    Tells (getMessageFrom hobj queueType) (fun _ new => ∀ e ∈ new, e.readsFrom hobj = true)
      fun new => ∀ e ∈ new, e.readsFrom hobj = true := by
  refine tells_mqget.bind ?_
  rintro r new ⟨e, rfl, he⟩
  have hone : ∀ e' ∈ [e] ++ [], e'.readsFrom hobj = true := by simpa using he
  refine says_ite (fun _ => says_ite (fun _ => says_pure hone) fun _ => ?_) fun _ => ?_
  · refine says_ite (fun _ => ?_) fun _ => says_raise hone
    refine Says.bind (Q := fun _ new => new = []) (tells_update rfl) ?_
    rintro _ _ rfl
    exact says_raise hone
  · refine Says.bind (Q := fun _ new => new = []) (says_lift (fun _ => rfl) hone) ?_
    rintro _ _ rfl
    exact says_pure hone

theorem preserves_opens_getMessageFrom (hobj : MQHOBJ) (queueType : QueueType) :
    Preserves (fun s => clientOpens s.client) (getMessageFrom hobj queueType) := by
  refine (preserves_opens_of (preserves_mqi _)).bind fun r => ?_
  refine preserves_ite (preserves_ite (preserves_pure none) (preserves_ite ?_
    (preserves_raise _))) ((preserves_lift _).bind fun data => preserves_pure _)
  refine Preserves.bind (preserves_opens_update ?_) fun _ => preserves_raise _
  exact fun _ => rfl

/-- A queue that is open may be read by the handle of its field. -/
theorem mem_clientOpens {c : MQClient} {queueType : QueueType}
    (hopen : c.isOpen queueType = true) : (c.queue queueType, Access.read) ∈ clientOpens c := by
  have hqueue : (c.queue queueType, Access.read) ∈ queueOpens c queueType := by
    rw [queueOpens, if_pos hopen]
    exact Multiset.mem_singleton_self _
  refine Multiset.mem_add.mpr (Or.inr (Multiset.mem_add.mpr ?_))
  cases queueType with
  | stats => exact Or.inl hqueue
  | accounting => exact Or.inr hqueue

theorem within_lawful_getMessage (queueType : QueueType) :
    Within (Lawful readable) (getMessage queueType) := by
  intro s
  cases hopen : s.client.isOpen queueType with
  | false =>
      unfold wp
      rw [getMessage_closed hopen]
      exact refl_of (Lawful readable) s
  | true =>
      have hturns {new : List MqiEvent}
          (h : ∀ e ∈ new, e.readsFrom (s.client.queue queueType) = true) :
          Turns (Allowed readable) (clientOpens s.client) new (clientOpens s.client) :=
        turns_reads (Or.inl (mem_clientOpens hopen)) h
      have hwp := wp_lawful
        ((tells_getMessageFrom _ queueType).mono (fun _ _ h => hturns h) fun _ h => hturns h)
        (preserves_opens_getMessageFrom _ queueType)
      unfold wp at hwp ⊢
      rwa [getMessage_open hopen]

theorem within_lawful_getAllMessages (queueType : QueueType) :
    Within (Lawful readable) (getAllMessages queueType) := by
  have hdrain (fuel : Nat) (messages : List MQMessage) :
      Within (Lawful readable) (drain queueType fuel messages) := by
    induction fuel generalizing messages with
    | zero => exact within_lift _
    | succ fuel ih =>
        refine (within_lawful_getMessage queueType).bind fun msg => ?_
        cases msg with
        | none => exact within_pure messages
        | some msg => exact ih _
  exact fun s => hdrain _ [] s

/-! ### What is let go -/

/-- The session has gone on from another; the client is as given, and this is open. -/
structure Going (readable : List Bytes) (start : Session) (c : MQClient) (a : Open)
    (s : Session) : Prop where
  client : s.client = c
  turns : ∃ new, s.log = start.log ++ new ∧
    Turns (Allowed readable) (clientOpens start.client) new a

section Going

variable {start : Session} {c : MQClient} {a b : Open}

theorem going_start (s : Session) : Going readable s s.client (clientOpens s.client) s :=
  ⟨rfl, [], (List.append_nil s.log).symm, turns_nil _⟩

/-- A method that leaves the client as it is. -/
theorem wp_going {d : Method α} (h : Going readable start c a s)
    (hd : Tells d (fun _ new => Turns (Allowed readable) a new b) fun _ => False)
    (hclient : Preserves Session.client d) :
    wp d (fun _ => Going readable start c b) (fun _ _ => False) s := by
  obtain ⟨rfl, new, hlog, hnew⟩ := h
  have hstate := wp_of_state (R := fun s' : Session => s'.client = s.client) (hclient s)
  refine wp_mono (wp_and (hd s) hstate) ?_ ?_
  · rintro _ s' ⟨⟨new', hlog', hnew'⟩, hsame⟩
    exact ⟨hsame, new ++ new', by rw [hlog', hlog, List.append_assoc], hnew.append hnew'⟩
  · rintro _ s' ⟨⟨_, _, h⟩, -⟩
    exact h

theorem wp_going_update {f : MQClient → MQClient} {E : StdException → Session → Prop}
    (h : Going readable start c a s) :
    wp (update f) (fun _ => Going readable start (f c) a) E s :=
  ⟨congrArg f h.client, h.turns⟩

/-- A client that has no more open than is. -/
theorem Going.lawful (h : Going readable start c a s) (hle : clientOpens c ≤ a) :
    Lawful readable start s := by
  obtain ⟨rfl, new, hlog, hnew⟩ := h
  exact ⟨new, hlog, hnew.weaken hle⟩

/-- One of the two queues, if it is open. -/
theorem wp_going_queue {queueType : QueueType} {f : MQClient → MQClient} {s' : Session}
    (h : Going readable start c (queueOpens s.client queueType + a) s') :
    wp (when (s.client.isOpen queueType = true) do
        closeQueue (s.client.queue queueType)
        update f)
      (fun _ => Going readable start (if s.client.isOpen queueType = true then f c else c) a)
      (fun _ _ => False) s' := by
  unfold queueOpens at h
  rw [wp_when]
  split
  · next hopen =>
      rw [if_pos hopen] at h
      have hclosing := @tells_closing readable (fun _ => False) (s.client.queue queueType) .read a
      refine wp_seq (wp_going h hclosing (preserves_closeQueue _)) fun _ s'' h'' => ?_
      exact wp_going_update h''
  · next hopen =>
      rw [if_neg hopen, zero_add] at h
      exact h

/-- The subscriptions are closed, and the two queues are left. -/
theorem wp_going_unsubscribeAll (s : Session) :
    wp unsubscribeAll
      (fun _ => Going readable s { s.client with subscriptions := [] }
        (queueOpens s.client .stats + (queueOpens s.client .accounting + 0)))
      (fun _ _ => False) s := by
  show wp (forEach s.client.subscriptions closeSubscription >>= fun _ => _) _ _ s
  have hkept : Preserves Session.client (forEach s.client.subscriptions closeSubscription) :=
    preserves_forEach fun sub _ => preserves_closeSubscription sub
  have hclosed := @tells_closeAll readable (fun _ => False) s.client.subscriptions
    (queueOpens s.client .stats + queueOpens s.client .accounting)
  refine wp_seq (wp_going (going_start s) hclosed hkept) fun _ s' h' => ?_
  rw [add_zero]
  exact wp_going_update h'

theorem tells_mqdisc (a : Open) {F : List MqiEvent → Prop} :
    Tells (mqi mqdisc) (fun _ new => Turns (Allowed readable) a new a) F := by
  refine tells_call.mono ?_ fun _ h => h
  rintro _ _ ⟨r, -, rfl⟩
  exact turns_of_path fun rest => .single (.disc _)

end Going

theorem within_lawful_disconnect : Within (Lawful readable) disconnect := by
  intro s
  unfold disconnect
  rw [wp_bind]
  show wp (if _ then _ else _) _ _ s
  split
  · exact refl_of (Lawful readable) s
  · refine wp_mono (wp_seq (wp_going_unsubscribeAll s) fun _ s₁ h₁ =>
      wp_seq (wp_going_queue h₁) fun _ s₂ h₂ =>
      wp_seq (wp_going_queue h₂) fun _ s₃ h₃ =>
      wp_seq (wp_going h₃ (tells_mqdisc 0) (preserves_mqi _)) fun _ s₄ h₄ => wp_going_update h₄)
      (fun _ s' h' => h'.lawful (le_of_eq ?_)) fun _ _ h => h.elim
    show opensAll (MQClient.subscriptions (if _ then _ else _)) + (0 + 0) = 0
    split
    · split <;> rfl
    · split <;> rfl

end Client

/-! ## The monitor -/

/-- What the subscriptions of the monitor have open. -/
def monitorOpens (m : ResourceMonitor) : Open := opensAll (m.dataSubs.map DataSub.handles)

/-- What the monitor and its client have open. -/
def worldOpens (w : World) : Open := clientOpens w.session.client + monitorOpens w.monitor

/-- The same of the monitor and its client. -/
abbrev KeepsWorld (readable : List Bytes) : World → World → Prop :=
  Turning (Allowed readable) (fun w => w.session.log) worldOpens

section Monitor

open Monitor

variable {α : Type} {w : World}

theorem within_world_session {c : Method α} (hc : Within (Lawful readable) c) :
    Within (KeepsWorld readable) (Monitor.session c) := by
  refine hc.zoom ?_
  rintro w s' ⟨new, hlog, hnew⟩
  exact ⟨new, hlog, hnew.frame (monitorOpens w.monitor)⟩

/-- Fields of the monitor that hold no handle. -/
theorem within_world_assign {f : ResourceMonitor → ResourceMonitor}
    (hf : ∀ m, (f m).dataSubs = m.dataSubs) : Within (KeepsWorld readable) (assign f) := by
  refine within_modify fun w => ⟨[], (List.append_nil _).symm, ?_⟩
  show Turns _ _ [] (clientOpens w.session.client + monitorOpens (f w.monitor))
  rw [monitorOpens, hf]
  exact turns_nil _

theorem within_world_discover : Within (KeepsWorld readable) discover :=
  within_discover_of (fun topic => within_world_session (within_lawful_subscribeAndGet topic))
    fun _ hf => within_world_assign hf

/-- A subscription that is made and kept. -/
theorem within_world_subscribeData (className typeName topic : Bytes) :
    Within (KeepsWorld readable) (subscribeData className typeName topic) := by
  intro w
  have hclient := wp_of_state (R := fun s' : Session => s'.client = w.session.client)
    (preserves_createSubscription topic w.session)
  have hmade := @tells_createSubscription readable (fun _ => False) topic (worldOpens w) w.session
  unfold subscribeData Monitor.session
  rw [wp_bind, wp_zoom]
  refine wp_mono (wp_and hmade hclient) ?_ ?_
  · rintro sub s' ⟨⟨new, hlog, hnew⟩, hsame⟩
    cases sub with
    | none =>
        refine ⟨new, hlog, hnew.weaken ?_⟩
        show clientOpens s'.client + monitorOpens w.monitor ≤ 0 + worldOpens w
        rw [hsame, zero_add, worldOpens]
    | some handles =>
        refine ⟨new, hlog, hnew.weaken (le_of_eq ?_)⟩
        show clientOpens s'.client + opensAll ((w.monitor.dataSubs ++ [_]).map DataSub.handles) =
          handles.opens + (clientOpens w.session.client + monitorOpens w.monitor)
        rw [List.map_append, opensAll_append, hsame]
        show clientOpens w.session.client + (monitorOpens w.monitor + (handles.opens + 0)) = _
        rw [add_zero]
        ac_rfl
  · rintro _ s' ⟨⟨_, _, h⟩, -⟩
    exact h.elim

theorem within_world_createSubscriptions (queues : List Bytes) :
    Within (KeepsWorld readable) (createSubscriptions queues) :=
  within_createSubscriptions_of within_world_subscribeData queues

theorem mem_worldOpens {sub : DataSub} (h : sub ∈ w.monitor.dataSubs) :
    (sub.handles.hobj, Access.own) ∈ worldOpens w := by
  refine Multiset.mem_add.mpr (Or.inr ?_)
  obtain ⟨before, behind, hsubs⟩ := List.append_of_mem h
  rw [monitorOpens, hsubs, List.map_append, opensAll_append, List.map_cons, opensAll_cons]
  refine Multiset.mem_add.mpr (Or.inr (Multiset.mem_add.mpr (Or.inl ?_)))
  exact Multiset.mem_cons_of_mem (Multiset.mem_singleton_self _)

/-- The queue of a subscription is read. -/
theorem wp_world_getMessages {sub : DataSub} (hsub : sub ∈ w.monitor.dataSubs) :
    wp (getMessagesFromHandle sub.handles.hobj 500)
      (fun _ s' => KeepsWorld readable w { w with session := s' })
      (fun _ s' => KeepsWorld readable w { w with session := s' }) w.session := by
  have hclient := wp_of_state (R := fun s' : Session => s'.client = w.session.client)
    (preserves_getMessagesFromHandle sub.handles.hobj 500 w.session)
  have hreads := @tells_getMessagesFromHandle sub.handles.hobj 500 (fun _ => False) w.session
  refine wp_mono (wp_and hreads hclient) ?_ ?_
  · rintro _ s' ⟨⟨new, hlog, hnew⟩, hsame⟩
    refine ⟨new, hlog, ?_⟩
    show Turns _ (worldOpens w) new (clientOpens s'.client + monitorOpens w.monitor)
    rw [hsame]
    exact turns_reads (Or.inr (mem_worldOpens hsub)) hnew
  · rintro _ s' ⟨⟨_, _, h⟩, -⟩
    exact h.elim

/-- The queues of some of the subscriptions are read. -/
theorem wp_world_publicationsOf (subs : List DataSub) (metrics : List PublicationMetric)
    (w : World) (hsubs : ∀ sub ∈ subs, sub ∈ w.monitor.dataSubs) :
    wp (publicationsOf subs metrics) (fun _ => KeepsWorld readable w)
      (fun _ => KeepsWorld readable w) w := by
  induction subs generalizing metrics w with
  | nil => exact refl_of (KeepsWorld readable) w
  | cons sub subs ih =>
      obtain ⟨hsub, hrest⟩ := List.forall_mem_cons.mp hsubs
      have hgo (s' : Session) (h : KeepsWorld readable w { w with session := s' })
          (metrics : List PublicationMetric) :
          wp (publicationsOf subs metrics) (fun _ => KeepsWorld readable w)
            (fun _ => KeepsWorld readable w) { w with session := s' } :=
        wp_mono (ih metrics { w with session := s' } hrest)
          (fun _ _ h' => trans_of (KeepsWorld readable) h h')
          fun _ _ h' => trans_of (KeepsWorld readable) h h'
      unfold publicationsOf Monitor.session
      rw [wp_bind, wp_zoom]
      refine wp_mono (wp_world_getMessages hsub) ?_ fun _ s' h => h
      intro messages s' h
      unfold Monitor.monitor
      rw [wp_bind, wp_gets]
      cases w.monitor.typeElements.lookup (typeKey sub.className sub.typeName) with
      | none => exact hgo s' h _
      | some emap =>
          rw [wp_bind, wp_lift]
          exact ⟨fun found _ => hgo s' h _, fun _ _ => h⟩

theorem within_world_processPublications :
    Within (KeepsWorld readable) processPublications :=
  fun w => wp_world_publicationsOf w.monitor.dataSubs [] w fun _ h => h

/-- The monitor has gone on from another world; the client is as there, and this is
open. -/
structure Closing (readable : List Bytes) (start : World) (a : Open) (w : World) : Prop where
  client : w.session.client = start.session.client
  turns : ∃ new, w.session.log = start.session.log ++ new ∧
    Turns (Allowed readable) (worldOpens start) new (a + clientOpens start.session.client)

/-- The subscriptions are closed one by one; those that are still to be closed are open. -/
theorem wp_world_closeAll (w : World) :
    wp (forEach w.monitor.dataSubs fun sub => Monitor.session (closeSubscription sub.handles))
      (fun _ => Closing readable w 0) (fun _ _ => False) w := by
  refine wp_mono (wp_forEach
    (I := fun subs => Closing readable w (opensAll (subs.map DataSub.handles))) ?_ ?_)
    (fun _ _ h => h) fun _ _ h => h
  · refine ⟨rfl, [], (List.append_nil _).symm, ?_⟩
    rw [worldOpens, monitorOpens, add_comm]
    exact turns_nil _
  · rintro sub subs w' ⟨hclient, new, hlog, hnew⟩
    have hkept := wp_of_state (R := fun s' : Session => s'.client = w'.session.client)
      (preserves_closeSubscription sub.handles w'.session)
    have hclosed := @tells_closeSubscription readable (fun _ => False) sub.handles
      (opensAll (subs.map DataSub.handles) + clientOpens w.session.client) w'.session
    unfold Monitor.session
    rw [wp_zoom]
    refine wp_mono (wp_and hclosed hkept) ?_ ?_
    · rintro _ s' ⟨⟨new', hlog', hnew'⟩, hsame⟩
      rw [List.map_cons, opensAll_cons, add_assoc] at hnew
      exact ⟨hsame.trans hclient, new ++ new',
        by rw [hlog', hlog, List.append_assoc], hnew.append hnew'⟩
    · rintro _ s' ⟨⟨_, _, h⟩, -⟩
      exact h

theorem within_world_close : Within (KeepsWorld readable) Monitor.close := by
  intro w
  show wp (forEach w.monitor.dataSubs _ >>= fun _ => _) _ _ w
  have hall := @wp_world_closeAll readable w
  refine wp_seq (wp_mono hall (fun _ _ h => h) fun _ _ h => h.elim) ?_
  rintro _ w' ⟨hclient, new, hlog, hnew⟩
  refine ⟨new, hlog, hnew.weaken (le_of_eq ?_)⟩
  show clientOpens w'.session.client + 0 = 0 + clientOpens w.session.client
  rw [add_zero, zero_add, hclient]

end Monitor

/-! ## The objects -/

/-- What the objects of the collector have open. -/
def objectsOpen (o : Objects) : Open :=
  clientOpens o.session.client + o.monitor.elim 0 monitorOpens

/-- The same of the objects of the collector. -/
abbrev KeepsObjects (readable : List Bytes) : Objects → Objects → Prop :=
  Turning (Allowed readable) (fun o => o.session.log) objectsOpen

/-- The same of the metrics collector and its client. -/
abbrev LawfulMetrics (readable : List Bytes) :
    Metrics.MetricsCollector → Metrics.MetricsCollector → Prop :=
  Order.Preimage Metrics.MetricsCollector.session (Lawful readable)

section Objects

variable {α : Type} {cfg : Config}

theorem within_objects_client {c : Method α} (hc : Within (Lawful readable) c) :
    Within (KeepsObjects readable) (client c) := by
  refine hc.zoom ?_
  rintro o s' ⟨new, hlog, hnew⟩
  exact ⟨new, hlog, hnew.frame (o.monitor.elim 0 monitorOpens)⟩

theorem within_objects_metrics {c : Metrics.Collect α}
    (hc : Within (LawfulMetrics readable) c) : Within (KeepsObjects readable) (metrics c) := by
  refine hc.zoom ?_
  rintro o c' ⟨new, hlog, hnew⟩
  exact ⟨new, hlog, hnew.frame (o.monitor.elim 0 monitorOpens)⟩

theorem within_objects_monitor {absent : α} {c : Monitor.Program α}
    (hc : Within (KeepsWorld readable) c) :
    Within (KeepsObjects readable) (monitor absent c) := by
  intro o
  cases hm : o.monitor with
  | none => exact (wp_monitor_none hm).mpr (refl_of (KeepsObjects readable) o)
  | some m =>
      have hbehind (w : World) (h : KeepsWorld readable ⟨o.session, m⟩ w) :
          KeepsObjects readable o (o.withWorld w) := by
        obtain ⟨new, hlog, hnew⟩ := h
        refine ⟨new, hlog, ?_⟩
        rw [objectsOpen, hm]
        exact hnew
      rw [wp_monitor hm]
      exact wp_mono (hc _) (fun _ w h => hbehind w h) fun _ w h => hbehind w h

/-- Fields that hold no handle, and a monitor that has none. -/
theorem within_objects_modify {f : Objects → Objects}
    (hsession : ∀ o, (f o).session = o.session)
    (hmonitor : ∀ o m, (f o).monitor = some m → o.monitor = some m ∨ m.dataSubs = []) :
    Within (KeepsObjects readable) (modify f : Program Unit) := by
  refine within_modify fun o => ⟨[], ?_, (turns_nil (objectsOpen o)).weaken ?_⟩
  · show (f o).session.log = o.session.log ++ []
    rw [hsession, List.append_nil]
  · rw [objectsOpen, objectsOpen, hsession]
    refine add_le_add_right ?_ _
    cases hm : (f o).monitor with
    | none => exact Multiset.zero_le _
    | some m =>
        rcases hmonitor o m hm with hold | hnew
        · rw [hold]
        · rw [Option.elim_some, monitorOpens, hnew]
          exact Multiset.zero_le _

theorem within_objects_resetMonitor : Within (KeepsObjects readable) resetMonitor := by
  refine (within_objects_monitor within_world_close).bind fun _ => ?_
  exact within_objects_modify (fun _ => rfl) fun _ _ hm => nomatch hm

theorem within_objects_discoverMonitored (patterns : List Bytes) :
    Within (KeepsObjects readable) (discoverMonitored patterns) := by
  refine within_discoverMonitored_of (fun pattern => ?_) (fun o queues => ?_) patterns
  · exact within_objects_client (within_lawful_discoverQueues pattern)
  · exact ⟨[], (List.append_nil _).symm, turns_nil _⟩

theorem within_objects_setupMonitor (cfg : Config) :
    Within (KeepsObjects readable) (setupMonitor cfg) := by
  refine Within.tryCatch (Within.bind (within_objects_modify ?_ ?_) ?_)
    fun _ => within_objects_resetMonitor
  · exact fun _ => rfl
  · intro _ _ hm
    obtain rfl := Option.some.inj hm
    exact Or.inr rfl
  · intro _
    refine (within_objects_monitor within_world_discover).bind fun found => ?_
    refine within_ite ((within_gets _).bind fun queues => ?_) within_objects_resetMonitor
    exact (within_objects_monitor (within_world_createSubscriptions queues)).bind fun _ =>
      within_pure ()

/-- What is set up behind the connection, if the queues it opens may be read. -/
theorem within_objects_setupAfterConnect (hstats : cfg.statsQueue ∈ readable)
    (hacct : cfg.accountingQueue ∈ readable) :
    Within (KeepsObjects readable) (setupAfterConnect cfg) := by
  have htry {c : Program Unit} (hc : Within (KeepsObjects readable) c) :
      Within (KeepsObjects readable) (tryCatch c fun _ => return) :=
    hc.tryCatch fun _ => within_pure ()
  refine (htry (within_objects_client (within_lawful_openStatsQueue hstats))).bind fun _ => ?_
  refine (htry (within_objects_client (within_lawful_openAccountingQueue hacct))).bind fun _ => ?_
  refine (within_forEach fun topic _ => ?_).bind fun _ => ?_
  · exact (within_objects_client (within_lawful_subscribeToTopic topic)).bind fun _ =>
      within_pure ()
  · refine (within_objects_discoverMonitored _).bind fun _ => within_when ?_
    exact within_objects_setupMonitor cfg

theorem within_objects_disconnect :
    Within (KeepsObjects readable) (tryCatch (client disconnect) fun _ => return) :=
  (within_objects_client within_lawful_disconnect).tryCatch fun _ => within_pure ()

theorem within_objects_renewClient (cfg : Config) :
    Within (KeepsObjects readable) (renewClient cfg) := by
  refine within_objects_disconnect.bind fun _ => within_objects_resetMonitor.bind fun _ => ?_
  refine within_modify fun o => ⟨[], (List.append_nil _).symm, (turns_nil _).weaken ?_⟩
  -- the new client has nothing open
  show 0 + o.monitor.elim 0 monitorOpens ≤ clientOpens o.session.client + _
  exact add_le_add_left (Multiset.zero_le _) _

theorem within_objects_rediscover (cfg : Config) :
    Within (KeepsObjects readable) (rediscover cfg) := by
  refine Within.bind (within_objects_modify ?_ ?_) fun _ => within_objects_discoverMonitored _
  · exact fun _ => rfl
  · exact fun _ _ hm => Or.inl hm

/-- The calls of the destructor. -/
theorem within_objects_destroy (running : Bool) :
    Within (KeepsObjects readable) (destroy running) := by
  refine (within_when ?_).bind fun _ => within_objects_resetMonitor.bind fun _ =>
    within_objects_disconnect
  exact (within_objects_monitor within_world_close).bind fun _ =>
    within_objects_resetMonitor.bind fun _ => within_objects_disconnect

/-- The messages of a cycle. -/
theorem within_metrics_messages (cfg : Metrics.Config) :
    Within (LawfulMetrics readable) (Metrics.collectAllMessages cfg) :=
  within_messages (fun queueType => (within_lawful_getAllMessages queueType).zoom fun _ _ h => h)
    (fun c _ _ => refl_of (Lawful readable) c.session) cfg

end Objects

end IbmmqExporter.Collector
