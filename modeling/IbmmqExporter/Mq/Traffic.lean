/-
  Mq/Traffic.lean --- the calls that the methods of the client make.

  Most methods open queues, read and write messages, and close the queues again; they
  neither make nor end a subscription.  Which subscriptions are live at the queue
  manager can be told from the calls that have been made.

  WHAT THE FILE PROVES.  Which methods leave the subscriptions as they are, and that
  `create_subscription` makes one if no call fails.  And a loop that reads publications
  from a queue goes on until an `MQGET` fails, a message is empty, or the number of
  turns is reached.
-/
import IbmmqExporter.Foundation.Course
import IbmmqExporter.Mq.Discovery
import IbmmqExporter.Mq.Drain

set_option autoImplicit false

namespace IbmmqExporter.Mq

open Foundation Effect

/-! ## Plain calls -/

/-- The call neither makes nor ends a subscription. -/
def MqiEvent.isPlain : MqiEvent → Bool
  | .disc | .subscribed _ _ _ | .closed _ .removeSub => false
  | _ => true

/-- The calls that have been made behind a session are plain. -/
abbrev Plain : Session → Session → Prop := Appends Session.log fun e => e.isPlain = true

section Plain

variable {α : Type}

/-- A call that is answered returns, and is recorded. -/
theorem wp_reply {event : Reply → MqiEvent} {result : Reply → α} {Q : α → Session → Prop}
    {E : StdException → Session → Prop} {s : Session}
    (hQ : ∀ r supply, Q (result r) (s.answered (event r) supply)) :
    wp (mqi (call event result)) Q E s := by
  unfold wp
  rcases hs : s.mqi.supply with _ | ⟨reply, supply⟩
  · rw [mqi_call_nil hs]
    trivial
  · rw [mqi_call_cons hs]
    exact hQ reply supply

theorem within_plain {event : Reply → MqiEvent} {result : Reply → α}
    (h : ∀ r, (event r).isPlain = true) : Within Plain (mqi (call event result)) := by
  intro s
  refine wp_reply fun r supply => ⟨[event r], rfl, fun e he => ?_⟩
  rw [List.mem_singleton.mp he]
  exact h r

theorem within_mqopen (od : MQOD) (options : Int32) : Within Plain (mqi (mqopen od options)) := by
  refine within_plain fun r => ?_
  split
  · rfl
  · rfl

theorem within_mqget (hobj : MQHOBJ) (size : Nat) : Within Plain (mqi (mqget hobj size)) := by
  refine within_plain fun r => ?_
  unfold getEvent
  split
  · rfl
  · rfl

theorem within_close {hobj : MQHOBJ} {option : CloseOption} (h : option ≠ .removeSub) :
    Within Plain (do let _ ← mqi (mqclose hobj option)) := by
  refine (within_plain fun _ => ?_).bind fun _ => within_pure ()
  cases option with
  | none => rfl
  | deletePurge => rfl
  | removeSub => exact absurd rfl h

theorem within_client (f : MQClient → α) : Within Plain (client f) := within_gets _

theorem within_update (f : MQClient → MQClient) : Within Plain (update f) :=
  within_modify fun s => ⟨[], (List.append_nil s.log).symm, fun _ he => absurd he List.not_mem_nil⟩

theorem within_openQueue (queueName : Bytes) (options : Int32) :
    Within Plain (openQueue queueName options) :=
  (within_mqopen _ _).bind fun _ => within_ite (within_raise _) (within_pure _)

theorem within_openDynamicQueue (queueName : Bytes) (options : Int32) (dynamicQName : Bytes) :
    Within Plain (openDynamicQueue queueName options dynamicQName) :=
  (within_mqopen _ _).bind fun _ => within_ite (within_raise _) (within_pure _)

theorem within_attempted {c : Method α} (hc : Within Plain c) :
    Within Plain (tryCatch (some <$> c) fun _ => return none) :=
  (hc.map some).tryCatch fun _ => within_pure none

theorem within_closeQueue (hobj : MQHOBJ) : Within Plain (closeQueue hobj) :=
  within_when (within_close nofun)

theorem within_inquireQueue (queueName : Bytes) : Within Plain (inquireQueue queueName) := by
  refine (within_client _).bind fun connected => within_ite (within_pure _) ?_
  refine (within_attempted (within_openQueue _ _)).bind fun hobj => ?_
  cases hobj with
  | none => exact within_pure none
  | some hobj =>
      refine (within_plain fun _ => rfl).bind fun r => ?_
      exact (within_closeQueue hobj).bind fun _ => within_pure _

theorem within_getQueueInfo (queueName : Bytes) : Within Plain (getQueueInfo queueName) := by
  refine (within_inquireQueue queueName).bind fun r => ?_
  cases r with
  | none => exact within_pure none
  | some r => exact within_ite (within_pure _) (within_pure _)

theorem within_readResponses (hobj : MQHOBJ) (n : Nat) (responses : List Bytes) :
    Within Plain (readResponses hobj n responses) := by
  induction n generalizing responses with
  | zero => exact within_pure responses
  | succ n ih =>
      refine (within_mqget _ _).bind fun r => within_ite (within_pure _) ?_
      refine (within_lift _).bind fun response => ?_
      exact within_ite (within_pure _) (ih _)

theorem within_sendPcfCommand (cmd : Bytes) : Within Plain (sendPcfCommand cmd) := by
  have hclose (hobj : MQHOBJ) (responses : List Bytes) : Within Plain (do
      let _ ← mqi (mqclose hobj .deletePurge)
      return responses) := (within_plain fun _ => rfl).bind fun _ => within_pure _
  refine (within_client _).bind fun connected => within_ite (within_pure _) ?_
  refine (within_attempted (within_openDynamicQueue _ _ _)).bind fun reply => ?_
  rcases reply with _ | ⟨replyHobj, replyName⟩
  · exact within_pure []
  · refine within_ite (hclose _ _) ?_
    refine (within_attempted (within_openQueue _ _)).bind fun queue => ?_
    cases queue with
    | none => exact hclose _ _
    | some cmdHobj =>
        refine (within_plain fun _ => rfl).bind fun put => ?_
        refine (within_closeQueue cmdHobj).bind fun _ => within_ite (hclose _ _) ?_
        exact (within_readResponses replyHobj 1000 []).bind (hclose replyHobj)

theorem within_connect : Within Plain connect := by
  have hplatform : Within Plain detectPlatform := by
    refine (within_mqopen _ _).bind fun r => within_ite (within_update _) ?_
    refine (within_plain fun _ => rfl).bind fun inq => (within_plain fun _ => rfl).bind fun _ => ?_
    exact within_ite (within_update _) (within_update _)
  refine (within_client _).bind fun connected => within_ite (within_pure _) ?_
  refine (within_client _).bind fun config => ?_
  refine (within_plain fun _ => rfl).bind fun r => within_ite (within_raise _) ?_
  exact (within_update _).bind fun _ => hplatform

theorem within_discoverQueues (pattern : Bytes) : Within Plain (discoverQueues pattern) :=
  (within_sendPcfCommand _).bind fun _ => within_lift _

theorem within_getMessageFrom (hobj : MQHOBJ) (queueType : QueueType) :
    Within Plain (getMessageFrom hobj queueType) := by
  refine (within_mqget _ _).bind fun r => within_ite ?_ ?_
  · refine within_ite (within_pure none) (within_ite ?_ (within_raise _))
    exact (within_update _).bind fun _ => within_raise _
  · exact (within_lift _).bind fun data => within_pure _

theorem within_getAllMessages (queueType : QueueType) :
    Within Plain (getAllMessages queueType) := by
  have hget : Within Plain (getMessage queueType) := by
    refine (within_client _).bind fun c => ?_
    cases queueType with
    | stats => exact within_ite (within_pure none) (within_getMessageFrom _ _)
    | accounting => exact within_ite (within_pure none) (within_getMessageFrom _ _)
  have hdrain (fuel : Nat) (messages : List MQMessage) :
      Within Plain (drain queueType fuel messages) := by
    induction fuel generalizing messages with
    | zero => exact within_lift _
    | succ fuel ih =>
        refine hget.bind fun msg => ?_
        cases msg with
        | none => exact within_pure messages
        | some msg => exact ih _
  exact fun s => hdrain _ [] s

theorem within_readPublications (hobj : MQHOBJ) (n : Nat) (messages : List MQMessage) :
    Within Plain (readPublications hobj n messages) := by
  induction n generalizing messages with
  | zero => exact within_pure messages
  | succ n ih =>
      refine (within_mqget _ _).bind fun r => within_ite (within_pure _) ?_
      exact (within_lift _).bind fun data => ih _

theorem within_getMessagesFromHandle (hobj : MQHOBJ) (maxMessages : Nat) :
    Within Plain (getMessagesFromHandle hobj maxMessages) :=
  (within_client _).bind fun _ =>
    within_ite (within_pure _) (within_readPublications hobj maxMessages [])

end Plain

/-! ## Live subscriptions -/

/-- The subscriptions that are live at the queue manager: their handles and topics. -/
abbrev Subscriptions : Type := List (MQHOBJ × Bytes)

/-- What a call makes of them. -/
def MqiEvent.applyTo (live : Subscriptions) : MqiEvent → Subscriptions
  | .subscribed topic _ hsub => live ++ [(hsub, topic)]
  | .closed hsub .removeSub => live.filter fun sub => sub.1 ≠ hsub
  | .disc => []
  | _ => live

/-- The subscriptions that some calls have left. -/
def liveSubscriptions (log : List MqiEvent) : Subscriptions := log.foldl MqiEvent.applyTo []

section Live

theorem liveSubscriptions_append (log log' : List MqiEvent) :
    liveSubscriptions (log ++ log') = log'.foldl MqiEvent.applyTo (liveSubscriptions log) :=
  List.foldl_append

theorem MqiEvent.applyTo_plain {event : MqiEvent} (h : event.isPlain = true)
    (live : Subscriptions) : event.applyTo live = live := by
  cases event with
  | disc => cases h
  | subscribed topic dest hsub => cases h
  | closed handle option =>
      cases option with
      | removeSub => cases h
      | _ => rfl
  | _ => rfl

/-- Plain calls leave the subscriptions alone. -/
theorem liveSubscriptions_of_plain {s s' : Session} (h : Plain s s') :
    liveSubscriptions s'.log = liveSubscriptions s.log := by
  obtain ⟨new, hlog, hnew⟩ := h
  rw [hlog, liveSubscriptions_append]
  generalize liveSubscriptions s.log = live
  clear hlog
  induction new with
  | nil => rfl
  | cons event new ih =>
      obtain ⟨hevent, hrest⟩ := List.forall_mem_cons.mp hnew
      rw [List.foldl_cons, MqiEvent.applyTo_plain hevent, ih hrest]

/-- With a connection `create_subscription` makes a subscription, if no call is
refused. -/
theorem wp_createSubscription_live {topic : Bytes} {s : Session}
    (hconnected : s.client.connected = true) :
    wp (createSubscription topic)
      (fun sub s' => s'.client = s.client ∧ (.refused ∉ s'.log → .refused ∉ s.log ∧
        ∃ handles, sub = some handles ∧
          liveSubscriptions s'.log = liveSubscriptions s.log ++ [(handles.hsub, topic)]))
      (fun _ _ => False) s := by
  have hrefused {new : List MqiEvent} {p : Prop} (hmem : .refused ∈ new)
      (h : .refused ∉ s.log ++ new) : p := absurd (List.mem_append_right _ hmem) h
  unfold createSubscription openDynamicQueue mqopen
  rw [wp_bind]
  show wp (if ¬ s.client.connected = true then _ else _) _ _ s
  rw [if_neg (not_not.mpr hconnected), wp_bind, wp_tryCatch, map_eq_pure_bind, wp_bind, wp_bind]
  refine wp_reply fun dest supply => ?_
  by_cases hdest : dest.cc = .failed
  · simp only [id_eq, if_pos hdest]
    exact ⟨rfl, hrefused (List.mem_singleton_self _)⟩
  · simp only [id_eq, if_neg hdest]
    show wp (mqi (mqsub topic dest.handle) >>= _) _ _ _
    unfold mqsub
    rw [wp_bind]
    refine wp_reply fun sub supply => ?_
    by_cases hsub : sub.cc = .failed
    · simp only [id_eq, if_pos hsub]
      rw [wp_bind]
      refine wp_reply fun _ supply => ⟨rfl, fun h => ?_⟩
      simp only [Session.answered_log, List.append_assoc] at h
      exact hrefused (by simp) h
    · simp only [id_eq, if_neg hsub]
      refine ⟨rfl, fun h => ⟨fun hbefore => ?_, ⟨dest.handle, sub.handle⟩, rfl, ?_⟩⟩
      · simp only [Session.answered_log, List.append_assoc] at h
        exact h (List.mem_append_left _ hbefore)
      · simp only [Session.answered_log, List.append_assoc]
        rw [liveSubscriptions_append]
        rfl

end Live

/-! ## Reading to the end -/

/-- An `MQGET` on the queue that found a message. -/
def MqiEvent.found (hobj : MQHOBJ) : MqiEvent → Bool
  | .got h _ _ => decide (h = hobj)
  | _ => false

/-- The queue has been read until an `MQGET` failed, a message was empty, or `n` messages
were found. -/
def ReadsOut (events : List MqiEvent) (hobj : MQHOBJ) (n : Nat) : Prop :=
  (∃ rc, .gotNothing hobj rc ∈ events) ∨ (∃ size, .got hobj size [] ∈ events) ∨
    n ≤ events.countP (MqiEvent.found hobj)

theorem ReadsOut.mono {events events' : List MqiEvent} {hobj : MQHOBJ} {n : Nat}
    (h : ReadsOut events hobj n) (hsub : events.Sublist events') : ReadsOut events' hobj n := by
  rcases h with ⟨rc, hrc⟩ | ⟨size, hsize⟩ | hcount
  · exact .inl ⟨rc, hsub.subset hrc⟩
  · exact .inr (.inl ⟨size, hsub.subset hsize⟩)
  · exact .inr (.inr (hcount.trans (hsub.countP_le)))

theorem ReadsOut.cons {events : List MqiEvent} {hobj : MQHOBJ} {n size : Nat}
    (h : ReadsOut events hobj n) (message : Bytes) :
    ReadsOut (.got hobj size message :: events) hobj (n + 1) := by
  rcases h with ⟨rc, hrc⟩ | ⟨size', hempty⟩ | hcount
  · exact .inl ⟨rc, List.mem_cons_of_mem _ hrc⟩
  · exact .inr (.inl ⟨size', List.mem_cons_of_mem _ hempty⟩)
  · have hfound : MqiEvent.found hobj (.got hobj size message) = true := decide_eq_true rfl
    refine .inr (.inr ?_)
    rw [List.countP_cons_of_pos hfound]
    exact Nat.succ_le_succ hcount

/-- A loop over publications reads the queue to its end. -/
theorem wp_readPublications (hobj : MQHOBJ) (n : Nat) (messages : List MQMessage) (s : Session) :
    wp (readPublications hobj n messages)
      (fun _ s' => ∃ new, s'.log = s.log ++ new ∧ ReadsOut new hobj n) (fun _ _ => False) s := by
  induction n generalizing messages s with
  | zero => exact ⟨[], (List.append_nil _).symm, .inr (.inr (Nat.zero_le _))⟩
  | succ n ih =>
      unfold readPublications mqget
      rw [wp_bind]
      refine wp_reply fun r supply => ?_
      by_cases hcc : r.cc = .failed
      · have hevent : getEvent hobj (64 * 1024) r = .gotNothing hobj r.rc := if_pos hcc
        rw [if_pos (.inl (getResult_failed (64 * 1024) hcc).1), hevent]
        exact ⟨[.gotNothing hobj r.rc], rfl, .inl ⟨r.rc, List.mem_singleton_self _⟩⟩
      · have hevent : getEvent hobj (64 * 1024) r = .got hobj (64 * 1024) r.message := if_neg hcc
        obtain ⟨hfound, hlen, -, -⟩ := getResult_found (64 * 1024) hcc
        rw [hevent]
        split
        · next hstop =>
            refine ⟨[.got hobj (64 * 1024) r.message], rfl, ?_⟩
            rcases hstop with hfailed | hempty
            · exact absurd hfailed hfound
            · rw [hlen] at hempty
              rw [List.eq_nil_of_length_eq_zero hempty]
              exact .inr (.inl ⟨_, List.mem_singleton_self _⟩)
        · rw [wp_bind, wp_lift]
          constructor
          · intro data _
            refine wp_mono (ih _ _) (fun _ s' hs' => ?_) fun _ _ h => h
            obtain ⟨new, hlog, hread⟩ := hs'
            refine ⟨.got hobj (64 * 1024) r.message :: new, ?_, hread.cons r.message⟩
            rw [hlog, Session.answered_log, List.append_assoc]
            rfl
          · intro e he
            unfold copyOut at he
            split at he
            · cases he
            · cases he

/-- With a connection `get_messages_from_handle` reads an open queue to its end. -/
theorem wp_getMessagesFromHandle {s : Session} (hconnected : s.client.connected = true)
    (hobj : MQHOBJ) (maxMessages : Nat) :
    wp (getMessagesFromHandle hobj maxMessages)
      (fun _ s' => ∃ new, s'.log = s.log ++ new ∧ (hobj ≠ 0 → ReadsOut new hobj maxMessages))
      (fun _ _ => False) s := by
  unfold getMessagesFromHandle
  rw [wp_bind]
  show wp (if ¬ s.client.connected = true ∨ hobj = 0 then _ else _) _ _ s
  split
  · next hidle =>
      rcases hidle with hdown | hzero
      · exact absurd hconnected hdown
      · exact ⟨[], (List.append_nil _).symm, fun h => absurd hzero h⟩
  · refine wp_mono (wp_readPublications hobj maxMessages [] s) (fun _ s' hs' => ?_) fun _ _ h => h
    obtain ⟨new, hlog, hread⟩ := hs'
    exact ⟨new, hlog, fun _ => hread⟩

end IbmmqExporter.Mq
