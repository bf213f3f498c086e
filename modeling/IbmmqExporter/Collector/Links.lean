/-
  Collector/Links.lean --- the connection of the process to its queue manager.

  Two threads share the client.  One connects, sets up and collects; the other closes and
  disconnects when the process is to stop, wherever the first one is.

  WHAT THE FILE PROVES.  In every run, whichever thread has come first, there is never
  more than one connection, and every call but `MQCONNX` is made over it
  (`run_connected`).
-/
import Mathlib.Order.RelClasses
import IbmmqExporter.Collector.Ownership
import IbmmqExporter.Monitor.Course
import IbmmqExporter.Mq.Links

set_option autoImplicit false

namespace IbmmqExporter.Collector

open Foundation Effect Mq
open Monitor (ResourceMonitor World)

/-! ## The client -/

/-- The calls are made over the connection that the client's fields show, and without one
it has no subscriptions. -/
structure Linked (s : Session) : Prop where
  obeys : Obeys MqiEvent.link MqiEvent.May false s.log
  linkedBy : linkedBy s.log = s.client.linked
  subs : s.client.subscriptions ≠ [] → s.client.linked = true

/-- What is linked stays so, and a connection stays. -/
def KeepsLinked (s s' : Session) : Prop :=
  Linked s → Linked s' ∧ (s.client.linked = true → s'.client.linked = true)

instance : Std.Refl KeepsLinked := ⟨fun _ h => ⟨h, id⟩⟩

instance : IsTrans Session KeepsLinked where
  trans := by
    intro s s' s'' h h' hs
    obtain ⟨hs', hup⟩ := h hs
    obtain ⟨hs'', hup'⟩ := h' hs'
    exact ⟨hs'', fun hlinked => hup' (hup hlinked)⟩

section Client

variable {α : Type} {s s' : Session}

/-- Ordinary calls over a connection that stays. -/
theorem Linked.append (hs : Linked s) (h : Ordinarily s s') (hlinked : s.client.linked = true)
    (hlinked' : s'.client.linked = true) : Linked s' := by
  obtain ⟨new, hlog, hnew⟩ := h
  obtain ⟨hobeys, hfold⟩ := obeys_ordinary hnew
  have hup : s.log.foldl MqiEvent.link false = true := hs.linkedBy.trans hlinked
  refine ⟨?_, ?_, fun _ => hlinked'⟩
  · rw [hlog]
    refine obeys_append.mpr ⟨hs.obeys, ?_⟩
    rwa [hup]
  · unfold Mq.linkedBy
    rw [hlog, List.foldl_append, hup, hfold, hlinked']

/-- A method that does nothing without a connection, and else keeps it. -/
theorem within_linked {c : Method α} (hc : Within Ordinarily c)
    (hup : ∀ s : Session, s.client.linked = true → (c s).2.client.linked = true)
    (hdown : ∀ s : Session, s.client.linked = false → (c s).2 = s) :
    Within KeepsLinked c := by
  intro s
  cases hlinked : s.client.linked with
  | false =>
      refine wp_of_state ?_
      rw [hdown s hlinked]
      exact refl_of KeepsLinked s
  | true =>
      have hstate := wp_of_state (R := fun s' : Session => s'.client.linked = true) (hup s hlinked)
      exact wp_mono (wp_and (hc s) hstate)
        (fun _ _ h hs => ⟨hs.append h.1 hlinked h.2, fun _ => h.2⟩)
        fun _ _ h hs => ⟨hs.append h.1 hlinked h.2, fun _ => h.2⟩

theorem linked_of_connected (h : s.client.connected = true) : s.client.linked = true := by
  unfold MQClient.linked
  rw [h, Bool.true_or, Bool.true_or]

/-- A method that looks at `connected_`. -/
theorem within_linked_of_idle {c : Method α} (hc : Within Ordinarily c) (hidle : Idle c)
    (hkept : Preserves isConnected c) : Within KeepsLinked c := by
  refine within_linked hc (fun s hlinked => ?_) fun s hlinked => ?_
  · cases hconnected : s.client.connected with
    | true => exact linked_of_connected ((hkept s).trans hconnected)
    | false =>
        rw [hidle s hconnected]
        exact hlinked
  · exact hidle s (linked_eq_false hlinked).1

theorem within_linked_openStatsQueue (queueName : Bytes) :
    Within KeepsLinked (openStatsQueue queueName) :=
  within_linked_of_idle (ordinary_opening _ _ _) (idle_guarded (idle_raise _))
    (preserves_openStatsQueue queueName)

theorem within_linked_openAccountingQueue (queueName : Bytes) :
    Within KeepsLinked (openAccountingQueue queueName) :=
  within_linked_of_idle (ordinary_opening _ _ _) (idle_guarded (idle_raise _))
    (preserves_openAccountingQueue queueName)

theorem within_linked_subscribeToTopic (topic : Bytes) :
    Within KeepsLinked (subscribeToTopic topic) :=
  within_linked_of_idle (ordinary_subscribeToTopic topic) (idle_subscribeToTopic topic)
    (preserves_subscribeToTopic topic)

theorem within_linked_getQueueInfo (queueName : Bytes) :
    Within KeepsLinked (getQueueInfo queueName) :=
  within_linked_of_idle (ordinary_getQueueInfo queueName) (idle_getQueueInfo queueName)
    (preserves_isConnected (preserves_getQueueInfo queueName))

theorem within_linked_sendPcfCommand (cmd : Bytes) : Within KeepsLinked (sendPcfCommand cmd) :=
  within_linked_of_idle (ordinary_sendPcfCommand cmd) (idle_sendPcfCommand cmd)
    (preserves_isConnected (preserves_sendPcfCommand cmd))

theorem within_linked_discoverQueues (pattern : Bytes) :
    Within KeepsLinked (discoverQueues pattern) :=
  (within_linked_sendPcfCommand _).bind fun _ => within_lift _

theorem within_linked_createSubscription (topic : Bytes) :
    Within KeepsLinked (createSubscription topic) :=
  within_linked_of_idle (ordinary_createSubscription topic) (idle_createSubscription topic)
    (preserves_isConnected (preserves_createSubscription topic))

theorem within_linked_subscribeAndGet (topic : Bytes) :
    Within KeepsLinked (subscribeAndGet topic) :=
  within_linked_of_idle (ordinary_subscribeAndGet topic) (idle_subscribeAndGet topic)
    (preserves_isConnected (preserves_subscribeAndGet topic))

theorem within_linked_getMessagesFromHandle (hobj : MQHOBJ) (maxMessages : Nat) :
    Within KeepsLinked (getMessagesFromHandle hobj maxMessages) :=
  within_linked_of_idle (ordinary_getMessagesFromHandle hobj maxMessages)
    (idle_getMessagesFromHandle hobj maxMessages)
    (preserves_isConnected (preserves_getMessagesFromHandle hobj maxMessages))

/-! ### Messages -/

theorem linked_of_isOpen {queueType : QueueType} (h : s.client.isOpen queueType = true) :
    s.client.linked = true := by
  unfold MQClient.linked
  cases queueType with
  | stats =>
      have hstats : s.client.statsOpen = true := h
      rw [hstats, Bool.or_true, Bool.true_or]
  | accounting =>
      have hacct : s.client.acctOpen = true := h
      rw [hacct, Bool.or_true]

/-- An open queue keeps the connection, though it be broken. -/
theorem within_linked_getMessage (queueType : QueueType) :
    Within KeepsLinked (getMessage queueType) := by
  have hkept (hobj : MQHOBJ) :
      Preserves (fun s : Session => s.client.isOpen) (getMessageFrom hobj queueType) := by
    have hcall {β : Type} (c : MqiEffect β) :
        Preserves (fun s : Session => s.client.isOpen) (mqi c) :=
      (preserves_mqi c).comp MQClient.isOpen
    refine (hcall _).bind fun r => preserves_ite (preserves_ite (preserves_pure none)
      (preserves_ite ?_ (preserves_raise _))) ((preserves_lift _).bind fun data =>
        preserves_pure _)
    refine Preserves.bind (preserves_modify fun _ => ?_) fun _ => preserves_raise _
    funext t
    cases t <;> rfl
  have hordinary : Within Ordinarily (getMessage queueType) := by
    refine (within_gets _).bind fun c => ?_
    cases queueType with
    | stats => exact within_ite (within_pure none) (ordinary_getMessageFrom _ _)
    | accounting => exact within_ite (within_pure none) (ordinary_getMessageFrom _ _)
  refine within_linked hordinary (fun s hlinked => ?_) fun s hlinked => ?_
  · cases hopen : s.client.isOpen queueType with
    | false =>
        rw [getMessage_closed hopen]
        exact hlinked
    | true =>
        rw [getMessage_open hopen]
        exact linked_of_isOpen ((congrFun (hkept _ s) queueType).trans hopen)
  · have hclosed : s.client.isOpen queueType = false :=
      Bool.eq_false_iff.mpr fun hopen => Bool.eq_false_iff.mp hlinked (linked_of_isOpen hopen)
    rw [getMessage_closed hclosed]

theorem within_linked_getAllMessages (queueType : QueueType) :
    Within KeepsLinked (getAllMessages queueType) := by
  have hdrain (fuel : Nat) (messages : List MQMessage) :
      Within KeepsLinked (drain queueType fuel messages) := by
    induction fuel generalizing messages with
    | zero => exact within_lift _
    | succ fuel ih =>
        refine (within_linked_getMessage queueType).bind fun msg => ?_
        cases msg with
        | none => exact within_pure messages
        | some msg => exact ih _
  exact fun s => hdrain _ [] s

/-! ### What is let go -/

/-- The calls so far are made over a connection that is still there, and the client is as
given. -/
structure Leaving (c : MQClient) (s : Session) : Prop where
  obeys : Obeys MqiEvent.link MqiEvent.May false s.log
  linkedBy : linkedBy s.log = true
  client : s.client = c

theorem wp_leaving_close {c : MQClient} {hobj : MQHOBJ} {option : CloseOption}
    {E : StdException → Session → Prop} (h : Leaving c s) :
    wp (when (hobj ≠ 0) do let _ ← mqi (mqclose hobj option)) (fun _ => Leaving c) E s := by
  rw [wp_when]
  split
  · rw [wp_bind]
    refine wp_reply fun r supply => ⟨?_, ?_, h.client⟩
    · have hmay : (MqiEvent.closed hobj option).May (Mq.linkedBy s.log) := by
        rw [h.linkedBy]
        exact MqiEvent.may_ordinary rfl
      exact obeys_append.mpr ⟨h.obeys, hmay, trivial⟩
    · unfold Mq.linkedBy
      rw [Session.answered_log, List.foldl_append]
      exact h.linkedBy
  · exact h

theorem wp_leaving_update {c : MQClient} {f : MQClient → MQClient}
    {E : StdException → Session → Prop} (h : Leaving c s) :
    wp (update f) (fun _ => Leaving (f c)) E s := ⟨h.obeys, h.linkedBy, congrArg f h.client⟩

theorem wp_leaving_unsubscribeAll {E : StdException → Session → Prop}
    (h : Leaving s.client s) :
    wp unsubscribeAll (fun _ => Leaving { s.client with subscriptions := [] }) E s := by
  have hall : wp (forEach s.client.subscriptions closeSubscription)
      (fun _ => Leaving s.client) E s := by
    refine wp_forEach (I := fun _ => Leaving s.client) h fun sub _ s' h' => ?_
    exact wp_seq (wp_leaving_close h') fun _ _ h'' => wp_leaving_close h''
  show wp (forEach s.client.subscriptions closeSubscription >>= fun _ => _) _ _ s
  exact wp_seq hall fun _ _ h' => wp_leaving_update h'

/-- `MQDISC` is called where there is a connection, though it be broken. -/
theorem within_linked_disconnect : Within (Maintains fun _ : Unit => Linked) disconnect := by
  have hqueue {p : Prop} [Decidable p] {hobj : MQHOBJ} {f : MQClient → MQClient}
      {c : MQClient} {s' : Session} (h : Leaving c s') :
      wp (when p do
          closeQueue hobj
          update f)
        (fun _ => Leaving (if p then f c else c)) (fun _ _ => False) s' := by
    rw [wp_when]
    split
    · exact wp_seq (wp_leaving_close h) fun _ _ h' => wp_leaving_update h'
    · exact h
  refine within_maintains fun _ s hs => ?_
  unfold disconnect
  rw [wp_bind]
  show wp (if _ then _ else _) _ _ s
  split
  · exact hs
  · next hbusy =>
      have hlinked : s.client.linked = true := by
        by_contra hdown
        obtain ⟨hconn, hstats, hacct⟩ := linked_eq_false (Bool.eq_false_iff.mpr hdown)
        have hnone : s.client.subscriptions = [] := by
          by_contra hsubs
          exact hdown (hs.subs hsubs)
        refine hbusy ⟨?_, hnone, ?_, ?_⟩
        · exact Bool.eq_false_iff.mp hconn
        · exact Bool.eq_false_iff.mp hstats
        · exact Bool.eq_false_iff.mp hacct
      have hstart : Leaving s.client s := ⟨hs.obeys, hs.linkedBy.trans hlinked, rfl⟩
      refine wp_mono (wp_seq (wp_leaving_unsubscribeAll hstart) fun _ s₁ h₁ =>
        wp_seq (hqueue h₁) fun _ s₂ h₂ => wp_seq (hqueue h₂) fun _ s₃ h₃ => ?_)
        (fun _ _ h => h) fun _ _ h => h.elim
      rw [wp_bind]
      refine wp_reply fun r supply => ⟨?_, ?_, ?_⟩
      · exact obeys_append.mpr ⟨h₃.obeys, h₃.linkedBy, trivial⟩
      · show Mq.linkedBy (s₃.log ++ [.disc]) = false
        unfold Mq.linkedBy
        rw [List.foldl_append]
        rfl
      · intro hsubs
        refine absurd ?_ hsubs
        show s₃.client.subscriptions = []
        rw [h₃.client]
        split
        · split <;> rfl
        · split <;> rfl

/-! ### Connecting -/

theorem preserves_detectPlatform : Preserves isConnected detectPlatform := by
  have hcall {β : Type} (c : MqiEffect β) : Preserves isConnected (mqi c) :=
    preserves_isConnected (preserves_mqi c)
  have hset (plat : Int32) :
      Preserves isConnected (update fun c => { c with platform := plat }) :=
    preserves_update fun _ => rfl
  refine (hcall _).bind fun r => preserves_ite (hset _) ?_
  refine (hcall _).bind fun inq => (hcall _).bind fun _ => ?_
  refine preserves_ite (preserves_update fun _ => rfl) (hset _)

theorem wp_linked_detectPlatform (hs : Linked s) (hup : s.client.connected = true) :
    wp detectPlatform (fun _ => Linked) (fun _ => Linked) s := by
  have hstate := wp_of_state (R := fun s' : Session => isConnected s' = true)
    ((preserves_detectPlatform s).trans hup)
  exact wp_mono (wp_and (ordinary_detectPlatform s) hstate)
    (fun _ _ h => hs.append h.1 (linked_of_connected hup) (linked_of_connected h.2))
    fun _ _ h => hs.append h.1 (linked_of_connected hup) (linked_of_connected h.2)

/-- `MQCONNX` is called where there is no connection. -/
theorem wp_linked_connect (hs : Linked s) (hdown : s.client.linked = false) :
    wp connect (fun _ => Linked) (fun _ => Linked) s := by
  have hnone : ¬ s.client.connected = true := Bool.eq_false_iff.mp (linked_eq_false hdown).1
  have hbefore : s.log.foldl MqiEvent.link false = false := hs.linkedBy.trans hdown
  let cd := clientConn s.client.config
  have hcalled (success : Bool) :
      Obeys MqiEvent.link MqiEvent.May false (s.log ++ [.connx cd success]) :=
    obeys_append.mpr ⟨hs.obeys, hbefore, trivial⟩
  have hlinked (success : Bool) : Mq.linkedBy (s.log ++ [.connx cd success]) = success := by
    unfold Mq.linkedBy
    rw [List.foldl_append, hbefore]
    exact Bool.false_or success
  unfold connect
  rw [wp_bind]
  show wp (if s.client.connected = true then _ else _) _ _ s
  rw [if_neg hnone, wp_bind]
  show wp (mqi (mqconnx cd) >>= _) _ _ s
  rw [wp_bind]
  refine wp_reply fun r supply => ?_
  rw [wp_ite]
  split
  · next hfailed =>
      have hrefused : decide (r.cc ≠ .failed) = false := decide_eq_false (not_not.mpr hfailed)
      rw [hrefused]
      exact ⟨hcalled false, (hlinked false).trans hdown.symm, hs.subs⟩
  · next hmade =>
      have hdone : decide (r.cc ≠ .failed) = true := decide_eq_true hmade
      rw [hdone, wp_bind]
      show wp detectPlatform _ _
        { (s.answered (.connx cd true) supply) with client := { s.client with connected := true } }
      have hup : MQClient.linked { s.client with connected := true } = true := by
        unfold MQClient.linked
        rw [Bool.true_or, Bool.true_or]
      exact wp_linked_detectPlatform
        ⟨hcalled true, (hlinked true).trans hup.symm, fun _ => hup⟩ rfl

end Client

/-! ## The monitor -/

/-- The same of the monitor and its client.  As long as the process does not disconnect,
the monitor has subscriptions only with a connection. -/
structure LinkedWorld (kept : Bool) (w : World) : Prop where
  session : Linked w.session
  subs : kept = true → w.monitor.dataSubs ≠ [] → w.session.client.linked = true

/-- What is linked stays so. -/
abbrev KeepsLinkedWorld (kept : Bool) : World → World → Prop :=
  Maintains fun _ : Unit => LinkedWorld kept

section Monitor

open Monitor

variable {α : Type} {kept : Bool}

theorem within_linkedWorld_session {c : Method α} (hc : Within KeepsLinked c) :
    Within (KeepsLinkedWorld kept) (Monitor.session c) := by
  refine hc.zoom fun w s' h _ hw => ?_
  obtain ⟨hs', hup⟩ := h hw.session
  exact ⟨hs', fun hkept hsubs => hup (hw.subs hkept hsubs)⟩

theorem within_linkedWorld_assign {f : ResourceMonitor → ResourceMonitor}
    (hf : ∀ m, (f m).dataSubs = m.dataSubs) : Within (KeepsLinkedWorld kept) (assign f) := by
  refine within_modify fun w _ hw => ⟨hw.session, fun hkept hsubs => hw.subs hkept ?_⟩
  rw [← hf]
  exact hsubs

theorem within_linkedWorld_discover : Within (KeepsLinkedWorld kept) discover :=
  within_discover_of
    (fun topic => within_linkedWorld_session (within_linked_subscribeAndGet topic))
    fun _ hf => within_linkedWorld_assign hf

/-- A subscription is made over a connection. -/
theorem within_linkedWorld_subscribeData (className typeName topic : Bytes) :
    Within (KeepsLinkedWorld kept) (subscribeData className typeName topic) := by
  refine within_maintains fun _ w hw => ?_
  unfold subscribeData Monitor.session
  rw [wp_bind, wp_zoom]
  cases hconnected : w.session.client.connected with
  | false =>
      unfold wp
      rw [createSubscription_down hconnected]
      exact hw
  | true =>
      have hstate := wp_of_state (R := fun s' : Session => s'.client.connected = true)
        ((preserves_isConnected (preserves_createSubscription topic) w.session).trans hconnected)
      have hkept := wp_and (within_linked_createSubscription topic w.session) hstate
      refine wp_mono hkept (fun sub s' h => ?_) fun _ s' h =>
        ⟨(h.1 hw.session).1, fun _ _ => linked_of_connected h.2⟩
      obtain ⟨hs', -⟩ := h.1 hw.session
      cases sub with
      | none => exact ⟨hs', fun _ _ => linked_of_connected h.2⟩
      | some handles => exact ⟨hs', fun _ _ => linked_of_connected h.2⟩

theorem within_linkedWorld_createSubscriptions (queues : List Bytes) :
    Within (KeepsLinkedWorld kept) (createSubscriptions queues) :=
  within_createSubscriptions_of within_linkedWorld_subscribeData queues

theorem within_linkedWorld_processPublications :
    Within (KeepsLinkedWorld kept) processPublications :=
  within_processPublications_of fun hobj =>
    within_linkedWorld_session (within_linked_getMessagesFromHandle hobj 500)

/-- What the monitor has open is closed over the connection. -/
theorem within_linkedWorld_close : Within (KeepsLinkedWorld true) Monitor.close := by
  refine within_maintains fun _ w hw => ?_
  have hall : wp (forEach w.monitor.dataSubs fun sub =>
      Monitor.session (closeSubscription sub.handles))
      (fun _ w' => Linked w'.session) (fun _ => LinkedWorld true) w := by
    cases hsubs : w.monitor.dataSubs with
    | nil => exact hw.session
    | cons sub subs =>
        have hlinked : w.session.client.linked = true := hw.subs rfl (hsubs ▸ List.cons_ne_nil _ _)
        refine wp_mono (wp_forEach
          (I := fun _ w' => Linked w'.session ∧ w'.session.client.linked = true)
          ⟨hw.session, hlinked⟩ fun sub _ w' h => ?_) (fun _ _ h => h.1) fun _ _ h => h
        have hstate := wp_of_state (R := fun s' : Session => s'.client.linked = true)
          ((congrArg MQClient.linked (preserves_closeSubscription sub.handles w'.session)).trans h.2)
        unfold Monitor.session
        rw [wp_zoom]
        exact wp_mono (wp_and (ordinary_closeSubscription sub.handles w'.session) hstate)
          (fun _ _ h' => ⟨h.1.append h'.1 h.2 h'.2, h'.2⟩)
          fun _ _ h' => ⟨h.1.append h'.1 h.2 h'.2, fun _ _ => h'.2⟩
  show wp (forEach w.monitor.dataSubs _ >>= fun _ => _) _ _ w
  rw [wp_bind]
  exact wp_mono hall (fun _ _ h => ⟨h, fun _ hsubs => absurd rfl hsubs⟩) fun _ _ h => h

end Monitor

/-! ## The objects -/

/-- The same of the objects of the collector. -/
structure LinkedObjects (kept : Bool) (o : Objects) : Prop where
  session : Linked o.session
  subs : kept = true → ∀ m, o.monitor = some m → m.dataSubs ≠ [] → o.session.client.linked = true

/-- What is linked stays so. -/
abbrev KeepsLinkedObjects (kept : Bool) : Objects → Objects → Prop :=
  Maintains fun _ : Unit => LinkedObjects kept

section Objects

variable {α : Type} {kept : Bool} {o : Objects}

/-- Without a monitor there are no subscriptions to close. -/
theorem Linked.objects (h : Linked o.session) (hm : o.monitor = none) : LinkedObjects kept o := by
  refine ⟨h, fun _ m hsome => ?_⟩
  rw [hm] at hsome
  cases hsome

theorem within_linkedObjects_client {c : Method α} (hc : Within KeepsLinked c) :
    Within (KeepsLinkedObjects kept) (client c) := by
  refine hc.zoom fun o s' h _ ho => ?_
  obtain ⟨hs', hup⟩ := h ho.session
  exact ⟨hs', fun hkept m hm hsubs => hup (ho.subs hkept m hm hsubs)⟩

theorem within_linkedObjects_monitor {absent : α} {c : Monitor.Program α}
    (hc : Within (KeepsLinkedWorld kept) c) :
    Within (KeepsLinkedObjects kept) (monitor absent c) := by
  refine within_maintains fun _ o ho => ?_
  cases hm : o.monitor with
  | none => exact (wp_monitor_none hm).mpr ho
  | some m =>
      have hw : LinkedWorld kept { session := o.session, monitor := m } :=
        ⟨ho.session, fun hkept => ho.subs hkept m hm⟩
      have hbehind (w : World) (h : LinkedWorld kept w) : LinkedObjects kept (o.withWorld w) := by
        refine ⟨h.session, fun hkept m' hm' => ?_⟩
        obtain rfl := Option.some.inj hm'
        exact h.subs hkept
      rw [wp_monitor hm]
      exact wp_mono (hc _) (fun _ w h => hbehind w (h () hw)) fun _ w h => hbehind w (h () hw)

/-- Fields that are not the client's, and a monitor that has no subscriptions. -/
theorem within_linkedObjects_modify {f : Objects → Objects}
    (hsession : ∀ o, (f o).session = o.session)
    (hmonitor : ∀ o m, (f o).monitor = some m → o.monitor = some m ∨ m.dataSubs = []) :
    Within (KeepsLinkedObjects kept) (modify f : Program Unit) := by
  refine within_modify fun o _ ho => ⟨?_, fun hkept m hm hsubs => ?_⟩
  · rw [hsession]
    exact ho.session
  · rw [hsession]
    rcases hmonitor o m hm with hold | hnew
    · exact ho.subs hkept m hold hsubs
    · exact absurd hnew hsubs

theorem within_linkedObjects_resetMonitor :
    Within (KeepsLinkedObjects true) resetMonitor := by
  refine (within_linkedObjects_monitor within_linkedWorld_close).bind fun _ => ?_
  exact within_linkedObjects_modify (fun _ => rfl) fun _ _ hm => nomatch hm

theorem within_linkedObjects_discoverMonitored (patterns : List Bytes) :
    Within (KeepsLinkedObjects kept) (discoverMonitored patterns) := by
  refine within_discoverMonitored_of (fun pattern => ?_) (fun o queues _ ho => ?_) patterns
  · exact within_linkedObjects_client (within_linked_discoverQueues pattern)
  · exact ⟨ho.session, ho.subs⟩

theorem within_linkedObjects_setupMonitor (cfg : Config) :
    Within (KeepsLinkedObjects true) (setupMonitor cfg) := by
  refine Within.tryCatch (Within.bind (within_linkedObjects_modify ?_ ?_) fun _ => ?_)
    fun _ => within_linkedObjects_resetMonitor
  · exact fun _ => rfl
  · intro _ _ hm
    obtain rfl := Option.some.inj hm
    exact Or.inr rfl
  · refine (within_linkedObjects_monitor within_linkedWorld_discover).bind fun found => ?_
    refine within_ite ((within_gets _).bind fun queues => ?_) within_linkedObjects_resetMonitor
    exact (within_linkedObjects_monitor (within_linkedWorld_createSubscriptions queues)).bind
      fun _ => within_pure ()

theorem within_linkedObjects_setupAfterConnect (cfg : Config) :
    Within (KeepsLinkedObjects true) (setupAfterConnect cfg) := by
  have htry {c : Method Unit} (hc : Within KeepsLinked c) :
      Within (KeepsLinkedObjects true) (tryCatch (client c) fun _ => return) :=
    (within_linkedObjects_client hc).tryCatch fun _ => within_pure ()
  refine (htry (within_linked_openStatsQueue _)).bind fun _ => ?_
  refine (htry (within_linked_openAccountingQueue _)).bind fun _ => ?_
  refine (within_forEach fun topic _ => ?_).bind fun _ => ?_
  · exact (within_linkedObjects_client (within_linked_subscribeToTopic topic)).bind fun _ =>
      within_pure ()
  · refine (within_linkedObjects_discoverMonitored _).bind fun _ => within_when ?_
    exact within_linkedObjects_setupMonitor cfg

theorem within_linkedObjects_rediscover (cfg : Config) :
    Within (KeepsLinkedObjects kept) (rediscover cfg) := by
  refine Within.bind (within_linkedObjects_modify ?_ ?_) fun _ =>
    within_linkedObjects_discoverMonitored _
  · exact fun _ => rfl
  · exact fun _ _ hm => Or.inl hm

theorem within_linkedObjects_request (r : Request) :
    Within (KeepsLinkedObjects kept) r.run := by
  cases r with
  | getQueueInfo queueName =>
      exact (within_linkedObjects_client (within_linked_getQueueInfo queueName)).bind fun _ =>
        within_pure ()
  | sendPcfCommand cmd =>
      exact (within_linkedObjects_client (within_linked_sendPcfCommand cmd)).bind fun _ =>
        within_pure ()
  | processPublications =>
      exact (within_linkedObjects_monitor within_linkedWorld_processPublications).bind fun _ =>
        within_pure ()
  | record f => exact within_linkedObjects_modify (fun _ => rfl) fun _ _ hm => Or.inl hm

/-- The client of a metrics collector keeps to what is linked. -/
abbrev KeepsLinkedMetrics : Metrics.MetricsCollector → Metrics.MetricsCollector → Prop :=
  Order.Preimage Metrics.MetricsCollector.session KeepsLinked

/-- A cycle, whatever it requests. -/
theorem within_linkedObjects_collectMetrics (cfg : Config) (requests : List Request) :
    Within (KeepsLinkedObjects kept) (collectMetrics cfg requests) := by
  have hmessages : Within KeepsLinkedMetrics (Metrics.collectAllMessages cfg.toConfig) := by
    refine within_messages (fun queueType => ?_)
      (fun c _ _ => refl_of KeepsLinked c.session) cfg.toConfig
    exact (within_linked_getAllMessages queueType).zoom fun _ _ h => h
  refine Within.bind (hmessages.zoom fun o c' h _ ho => ?_) fun _ => within_forEach fun r _ => ?_
  · obtain ⟨hs', hup⟩ := h ho.session
    exact ⟨hs', fun hkept m hm hsubs => hup (ho.subs hkept m hm hsubs)⟩
  · exact (within_linkedObjects_request r).tryCatch fun _ => within_pure ()

/-- Behind `disconnect` the monitor may still have subscriptions. -/
theorem within_linked_disconnecting :
    Within (Maintains fun _ : Unit => LinkedObjects false)
      (tryCatch (client disconnect) fun _ => return) := by
  refine Within.tryCatch (within_linked_disconnect.zoom fun o s' h _ ho => ?_) fun _ =>
    within_pure ()
  exact ⟨h () ho.session, nofun⟩

end Objects

/-! ## Runs -/

/-- The main thread has not disconnected yet. -/
def MainPc.keeps : MainPc → Bool
  | .joining | .joined => false
  | _ => true

section Runs

variable {cfg : Config} {m m' : Machine} {input : Input} {signal : Bool}

/-- A step of the main thread. -/
theorem linked_mainStep (h : LinkedObjects m.main.keeps m.objects)
    (hstep : m.mainStep signal = some m') : LinkedObjects m'.main.keeps m'.objects := by
  have hdrop {kept : Bool} {o : Objects} (ho : LinkedObjects true o) : LinkedObjects kept o :=
    ⟨ho.session, fun _ => ho.subs rfl⟩
  have hend {o : Objects} (ho : LinkedObjects true o) : LinkedObjects false o := hdrop ho
  unfold Machine.mainStep at hstep
  cases hat : m.main with
  | closing =>
      rw [hat] at hstep h
      have hclosed : Within (KeepsLinkedObjects true) (do
          monitor () Monitor.close
          resetMonitor) :=
        (within_linkedObjects_monitor within_linkedWorld_close).bind fun _ =>
          within_linkedObjects_resetMonitor
      rcases call_cases (hclosed m.objects) hstep with ⟨o, ho, rfl⟩ | ⟨o, ho, rfl⟩
      · exact ho () h
      · exact hend (ho () h)
  | disconnecting =>
      rw [hat] at hstep h
      rcases call_cases (within_linked_disconnecting m.objects) hstep with
        ⟨o, ho, rfl⟩ | ⟨o, ho, rfl⟩
      · exact ho () (hend h)
      · exact ho () (hend h)
  | joining =>
      rw [hat] at hstep h
      dsimp only at hstep
      split at hstep
      · obtain rfl := Option.some.inj hstep
        exact h
      · cases hstep
  | joined =>
      rw [hat] at hstep
      cases hstep
  | waiting | stop | lower | ending =>
      rw [hat] at hstep h
      obtain rfl := Option.some.inj hstep
      exact hdrop h

/-- A step of the collector's thread. -/
theorem linked_collectorStep (hm : Owning m) (h : LinkedObjects m.main.keeps m.objects)
    (hstep : m.collectorStep cfg input = some m') :
    LinkedObjects m'.main.keeps m'.objects := by
  rw [collectorStep_main hstep]
  by_cases hconnect : m.pc = .connect
  · rcases hm with ⟨-, p, hbare, -, -, hconn⟩ | ⟨hcollecting, -⟩
    · have hdown : m.objects.session.client.linked = false :=
        (congrArg Phase.connected hbare.balanced.phase).trans (hconn (by rw [hconnect]; nofun))
      have hcall : wp (client Mq.connect) (fun _ o => Linked o.session ∧ o.monitor = none)
          (fun _ o => Linked o.session ∧ o.monitor = none) m.objects := by
        unfold client
        rw [wp_zoom]
        exact wp_mono (wp_linked_connect h.session hdown) (fun _ _ hs => ⟨hs, hbare.bare⟩)
          fun _ _ hs => ⟨hs, hbare.bare⟩
      unfold Machine.collectorStep at hstep
      rw [hconnect] at hstep
      have hmade := Option.eq_some_of_filter_eq_some hstep
      rcases call_cases hcall hmade with ⟨o, ho, rfl⟩ | ⟨o, ho, rfl⟩
      · exact ho.1.objects ho.2
      · exact ho.1.objects ho.2
    · exact absurd hconnect hcollecting.pc_ne.1
  by_cases hsetup : m.pc = .setup
  · rcases hm with ⟨-, p, hbare, -⟩ | ⟨hcollecting, -⟩
    · -- there is no monitor yet, so what is closed is what has just been set up
      have hkept := within_linkedObjects_setupAfterConnect cfg m.objects
      unfold Machine.collectorStep at hstep
      rw [hsetup] at hstep
      rcases call_cases hkept hstep with ⟨o, ho, rfl⟩ | ⟨o, ho, rfl⟩
      · obtain ⟨hs, hsubs⟩ := ho () (h.session.objects hbare.bare)
        exact ⟨hs, fun _ => hsubs rfl⟩
      · obtain ⟨hs, hsubs⟩ := ho () (h.session.objects hbare.bare)
        exact ⟨hs, fun _ => hsubs rfl⟩
    · exact absurd hsetup hcollecting.pc_ne.2.1
  have hkept : KeepsLinkedObjects m.main.keeps m.objects m'.objects := by
    refine collectorStep_within (Pc.program_within (fun hat => absurd hat hconnect)
      (fun hat => absurd hat hsetup) (fun _ => within_linkedObjects_collectMetrics cfg _)
      (fun _ _ => within_linkedObjects_rediscover cfg) fun hat => ?_) hstep
    rcases hm with ⟨hearly, -⟩ | ⟨hcollecting, -⟩
    · rw [hat] at hearly
      cases hearly
    · exact absurd hat hcollecting.pc_ne.2.2
  exact hkept () h

/-- What the monitor has open is open over a connection. -/
def Objects.Attached (o : Objects) : Prop :=
  ∀ m, o.monitor = some m → m.dataSubs ≠ [] → o.session.client.linked = true

/-- The monitor is let go, and the client disconnects. -/
theorem wp_linked_letGo {o : Objects} (h : LinkedObjects true o) :
    wp (do
        resetMonitor
        tryCatch (client disconnect) fun _ => return)
      (fun _ o' => Linked o'.session ∧ o'.monitor = none) (fun _ _ => False) o := by
  have hreset : wp resetMonitor (fun _ o' => Linked o'.session ∧ o'.monitor = none)
      (fun _ _ => False) o :=
    wp_mono (wp_and (within_linkedObjects_resetMonitor o) (wp_resetMonitor o))
      (fun _ _ hgone => ⟨(hgone.1 () h).session, hgone.2⟩) fun _ _ hgone => hgone.2
  refine wp_seq hreset fun _ o' ho' => ?_
  unfold client
  rw [wp_tryCatch, wp_zoom]
  exact wp_mono (within_linked_disconnect o'.session) (fun _ _ h => ⟨h () ho'.1, ho'.2⟩)
    fun _ _ h => ⟨h () ho'.1, ho'.2⟩

/-- The destructor calls over the connection. -/
theorem wp_linked_destroy {o : Objects} (h : LinkedObjects true o) (running : Bool) :
    wp (destroy running) (fun _ o' => Linked o'.session) (fun _ _ => False) o := by
  have hbehind {o : Objects} (ho : LinkedObjects true o) :
      wp (do
          resetMonitor
          tryCatch (client disconnect) fun _ => return)
        (fun _ o' => Linked o'.session) (fun _ _ => False) o :=
    wp_mono (wp_linked_letGo ho) (fun _ _ hgone => hgone.1) fun _ _ hgone => hgone
  unfold destroy
  rw [wp_bind, wp_when]
  split
  · have hclose : Within (KeepsLinkedObjects true) (monitor () Monitor.close) :=
      within_linkedObjects_monitor within_linkedWorld_close
    refine wp_seq (neverRaises_monitorClose.wp_ok (wp_mono (hclose o) (fun _ _ hc => hc () h)
      fun _ _ hc => hc)) fun _ o' ho' => ?_
    refine wp_mono (wp_linked_letGo ho') (fun _ o'' hgone => ?_) fun _ _ hgone => hgone
    exact hbehind (hgone.1.objects hgone.2)
  · exact hbehind h

/-- Calls that have been made over the connection that there was. -/
theorem Linked.connected {s : Session} (h : Linked s) : Connected s.log := by
  intro before e behind hlog
  have hobeys := h.obeys
  rw [hlog] at hobeys
  exact hobeys.at

/-- In every run there is never more than one connection, and what needs it is called over
it; when both threads are done, so does the destructor, if what the monitor has open is
open over a connection. -/
theorem run_connected {supply : List Reply} {actions : List Action} {trace : List Step}
    (hrun : history (Machine.step cfg) (Machine.initial cfg supply) actions = some trace) :
    ∀ t ∈ trace, Connected t.after.objects.session.log ∧
      (t.after.main = .joined → t.after.objects.Attached →
        wp (destroy t.after.running) (fun _ o => Connected o.session.log) (fun _ _ => False)
          t.after.objects) := by
  have hkept : KeptWhen (Machine.step cfg) (fun _ => True) fun m =>
      Owning m ∧ LinkedObjects m.main.keeps m.objects := by
    intro m action m' h hstep _
    refine ⟨Owning.step h.1 hstep, ?_⟩
    cases action with
    | collector input => exact linked_collectorStep h.1 h.2 hstep
    | main signal => exact linked_mainStep h.2 hstep
  have hstart : Linked (Machine.initial cfg supply).objects.session := ⟨trivial, rfl, absurd rfl⟩
  intro t ht
  have hafter := (hkept.of_mem ⟨owning_initial cfg supply, hstart.objects rfl⟩ hrun
    (fun _ _ => trivial) ht).2.2.2
  refine ⟨hafter.session.connected, fun _ hattached => ?_⟩
  exact wp_mono (wp_linked_destroy ⟨hafter.session, fun _ => hattached⟩ _)
    (fun _ _ h => h.connected) fun _ _ h => h

theorem stoppedRun_disconnects :
    (stoppedRun.any fun trace => trace.any fun t =>
      t.after.objects.session.log.contains .disc) = true := by
  decide +kernel

/-- In `stoppedRun` the connection is made, used and ended. -/
theorem run_connected_stoppedRun :
    ∃ trace, stoppedRun = some trace ∧
      (∃ t ∈ trace, .disc ∈ t.after.objects.session.log) ∧
      ∀ t ∈ trace, Connected t.after.objects.session.log ∧
        (t.after.main = .joined → t.after.objects.Attached →
          wp (destroy t.after.running) (fun _ o => Connected o.session.log) (fun _ _ => False)
            t.after.objects) := by
  obtain ⟨trace, htrace, hany⟩ := (Option.any_eq_true _ _).mp stoppedRun_disconnects
  obtain ⟨t, ht, hdisc⟩ := List.any_eq_true.mp hany
  exact ⟨trace, htrace, ⟨t, ht, List.contains_iff_mem.mp hdisc⟩, run_connected htrace⟩

end Runs

end IbmmqExporter.Collector
