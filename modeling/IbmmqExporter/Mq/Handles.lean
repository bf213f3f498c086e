/-
  Mq/Handles.lean --- the MQ objects that the client holds.

  `Holding` says what is open at the queue manager according to the calls made so
  far, and `MQClient.resources` what the client's fields account for.  `Balanced` is
  the invariant of the client: the two agree, up to what others hold.

  WHAT THE FILE PROVES.  Every method of the client keeps the invariant, whatever
  the queue manager answers; the objects it has opened for its own use it has closed
  when it returns or throws.
-/
import Mathlib.Algebra.Order.Group.Multiset
import Mathlib.Tactic.Abel
import IbmmqExporter.Foundation.Ledger
import IbmmqExporter.Mq.Client

set_option autoImplicit false

namespace IbmmqExporter.Mq

open Foundation

/-! ## What is held -/

/-- What the queue manager hands out and takes back. -/
inductive Resource where
  | connection
  /-- a handle, with the option with which it has to be closed -/
  | object (hobj : MQHOBJ) (option : CloseOption)
  deriving DecidableEq, Repr

/-- What a call means for the resources. -/
def MqiEvent.entry : MqiEvent → Entry Resource
  | .connx _ true => .acquire .connection
  | .connx _ false => .idle
  | .disc => .release .connection
  | .opened od _ hobj => .acquire (.object hobj od.closeOption)
  | .subscribed _ _ hsub => .acquire (.object hsub .removeSub)
  | .closed hobj option => .release (.object hobj option)
  | .got .. => .idle
  | .gotNothing .. => .idle
  | .put .. => .idle
  | .inquired _ => .idle
  | .refused => .idle

/-- The calls so far leave `held` open, and the client's fields are `c`. -/
structure Holding (held : Multiset Resource) (c : MQClient) (s : Session) : Prop where
  books : balance (s.log.map MqiEvent.entry) = some held
  client : s.client = c

/-- The resources of a subscription. -/
def SubHandle.resources (sub : SubHandle) : Multiset Resource :=
  {.object sub.hsub .removeSub, .object sub.hobj .deletePurge}

/-- A resource that is held under a condition. -/
def heldIf (p : Bool) (r : Resource) : Multiset Resource := if p then {r} else 0

/-- The resources of some subscriptions. -/
def subResources (subs : List SubHandle) : Multiset Resource :=
  (subs.map SubHandle.resources).sum

/-- The client has a connection, be it broken. -/
def MQClient.linked (c : MQClient) : Bool := c.connected || c.statsOpen || c.acctOpen

/-- What the client's fields account for. -/
def MQClient.resources (c : MQClient) : Multiset Resource :=
  heldIf c.linked .connection + heldIf c.statsOpen (.object c.statsQueue .none) +
    heldIf c.acctOpen (.object c.acctQueue .none) + subResources c.subscriptions

/-- Neither handle is zero. -/
def SubHandle.Valid (sub : SubHandle) : Prop := sub.hsub ≠ 0 ∧ sub.hobj ≠ 0

/-- The handles that the fields account for are handles. -/
structure MQClient.Valid (c : MQClient) : Prop where
  stats : c.statsOpen = true → c.statsQueue ≠ 0
  acct : c.acctOpen = true → c.acctQueue ≠ 0
  subs : ∀ sub ∈ c.subscriptions, sub.Valid
  linked : c.subscriptions ≠ [] → c.linked = true

/-- What has succeeded since the last `disconnect`. -/
structure Phase where
  connected : Bool := false
  statsOpened : Bool := false
  acctOpened : Bool := false
  deriving DecidableEq, Repr

/-- The phase that the client's fields show. -/
def MQClient.phase (c : MQClient) : Phase :=
  { connected := c.linked, statsOpened := c.statsOpen, acctOpened := c.acctOpen }

/-- The invariant of the client: what is open is what the fields account for and
what others hold. -/
structure Balanced (extra : Multiset Resource) (p : Phase) (s : Session) : Prop where
  books : balance (s.log.map MqiEvent.entry) = some (extra + s.client.resources)
  valid : s.client.Valid
  phase : s.client.phase = p

theorem Balanced.holding {extra : Multiset Resource} {p : Phase} {s : Session}
    (h : Balanced extra p s) : Holding (extra + s.client.resources) s.client s :=
  ⟨h.books, rfl⟩

theorem Holding.balanced {extra : Multiset Resource} {p : Phase} {c : MQClient} {s : Session}
    (h : Holding (extra + c.resources) c s) (hc : c.Valid) (hp : c.phase = p) :
    Balanced extra p s := by
  obtain ⟨hbooks, rfl⟩ := h
  exact ⟨hbooks, hc, hp⟩

@[simp] theorem subResources_nil : subResources [] = 0 := rfl

@[simp] theorem subResources_cons (sub : SubHandle) (subs : List SubHandle) :
    subResources (sub :: subs) = sub.resources + subResources subs := List.sum_cons

@[simp] theorem subResources_append (subs subs' : List SubHandle) :
    subResources (subs ++ subs') = subResources subs + subResources subs' := by
  unfold subResources
  rw [List.map_append, List.sum_append]

@[simp] theorem heldIf_false (r : Resource) : heldIf false r = 0 := rfl

@[simp] theorem heldIf_true (r : Resource) : heldIf true r = {r} := rfl

/-! ## Calls -/

section Calls

variable {held : Multiset Resource} {c : MQClient} {s : Session}
  {E : StdException → Session → Prop}

theorem Holding.answered {held' : Multiset Resource} {event : MqiEvent}
    (h : Holding held c s) (hpost : post held event.entry = some held')
    (supply : List Reply) : Holding held' c (s.answered event supply) := by
  refine ⟨?_, h.client⟩
  rw [Session.answered_log, List.map_append]
  exact (balance_concat h.books _).trans hpost

/-- A call, by what it means for the resources. -/
theorem wp_mqi_call {α : Type} {event : Reply → MqiEvent} {result : Reply → α}
    {Q : α → Session → Prop} (h : Holding held c s)
    (hQ : ∀ r, ∃ held', post held (event r).entry = some held' ∧
      ∀ s', Holding held' c s' → Q (result r) s') :
    Effect.wp (mqi (call event result)) Q E s := by
  unfold Effect.wp
  rcases hs : s.mqi.supply with _ | ⟨reply, supply⟩
  · rw [mqi_call_nil hs]
    trivial
  · rw [mqi_call_cons hs]
    obtain ⟨held', hpost, hQ⟩ := hQ reply
    exact hQ _ (h.answered hpost supply)

theorem wp_client {α : Type} {f : MQClient → α} (h : Holding held c s) :
    Effect.wp (client f) (fun a s' => a = f c ∧ Holding held c s') E s :=
  ⟨congrArg f h.client, h⟩

theorem wp_update {f : MQClient → MQClient} (h : Holding held c s) :
    Effect.wp (update f) (fun _ => Holding held (f c)) E s :=
  ⟨h.books, congrArg f h.client⟩

/-- A call that acquires a resource if it succeeds. -/
theorem wp_acquiring {event : Reply → MqiEvent} (resource : Reply → Resource)
    (h : Holding held c s)
    (hfailed : ∀ r, r.cc = .failed → post held (event r).entry = some held)
    (hfound : ∀ r, r.cc ≠ .failed → post held (event r).entry = some (resource r ::ₘ held)) :
    Effect.wp (mqi (call event id)) (fun r s' =>
      (r.cc = .failed ∧ Holding held c s') ∨
        (r.cc ≠ .failed ∧ Holding (resource r ::ₘ held) c s')) E s := by
  apply wp_mqi_call h
  intro r
  by_cases hcc : r.cc = .failed
  · exact ⟨held, hfailed r hcc, fun s' hs' => Or.inl ⟨hcc, hs'⟩⟩
  · exact ⟨_, hfound r hcc, fun s' hs' => Or.inr ⟨hcc, hs'⟩⟩

theorem wp_mqopen {od : MQOD} {options : Int32} (h : Holding held c s) :
    Effect.wp (mqi (mqopen od options)) (fun r s' =>
      (r.cc = .failed ∧ Holding held c s') ∨
        (r.cc ≠ .failed ∧ Holding (.object r.handle od.closeOption ::ₘ held) c s')) E s := by
  refine wp_acquiring (fun r => .object r.handle od.closeOption) h ?_ ?_
  · intro r hcc
    rw [if_pos hcc]
    rfl
  · intro r hcc
    rw [if_neg hcc]
    rfl

theorem wp_mqsub {topic : Bytes} {dest : MQHOBJ} (h : Holding held c s) :
    Effect.wp (mqi (mqsub topic dest)) (fun r s' =>
      (r.cc = .failed ∧ Holding held c s') ∨
        (r.cc ≠ .failed ∧ Holding (.object r.handle .removeSub ::ₘ held) c s')) E s := by
  refine wp_acquiring (fun r => .object r.handle .removeSub) h ?_ ?_
  · intro r hcc
    rw [if_pos hcc]
    rfl
  · intro r hcc
    rw [if_neg hcc]
    rfl

theorem wp_mqclose {hobj : MQHOBJ} {option : CloseOption}
    (h : Holding (.object hobj option ::ₘ held) c s) :
    Effect.wp (mqi (mqclose hobj option)) (fun _ => Holding held c) E s :=
  wp_mqi_call h fun _ => ⟨held, post_release_cons held _, fun _ hs' => hs'⟩

/-- `MQCONNX`. -/
theorem wp_mqconnx (clientConn : Option MQCD) (h : Holding held c s) :
    Effect.wp (mqi (mqconnx clientConn)) (fun r s' =>
      (r.cc = .failed ∧ Holding held c s') ∨
        (r.cc ≠ .failed ∧ Holding (.connection ::ₘ held) c s')) E s := by
  refine wp_acquiring (fun _ => .connection) h ?_ ?_
  · intro r hcc
    rw [decide_eq_false (not_not.mpr hcc)]
    rfl
  · intro r hcc
    rw [decide_eq_true hcc]
    rfl

theorem wp_mqdisc (h : Holding (.connection ::ₘ held) c s) :
    Effect.wp (mqi mqdisc) (fun _ => Holding held c) E s :=
  wp_mqi_call h fun _ => ⟨held, post_release_cons held _, fun _ hs' => hs'⟩

/-- `if (hobj != 0) MQCLOSE(hobj, option)` on a handle. -/
theorem wp_closeWhen {hobj : MQHOBJ} {option : CloseOption} (hne : hobj ≠ 0)
    (h : Holding (.object hobj option ::ₘ held) c s) :
    Effect.wp (Effect.when (hobj ≠ 0) do let _ ← mqi (mqclose hobj option))
      (fun _ => Holding held c) E s := by
  rw [Effect.wp_when, if_pos hne]
  exact Effect.wp_seq (wp_mqclose h) fun _ _ hs' => hs'

end Calls

/-! ## Methods that hold nothing -/

/-- Whatever is held and whatever the client's fields, both are the same when the
method returns; and it does not throw. -/
def Steady {α : Type} (m : Method α) : Prop :=
  ∀ held c s E, Holding held c s → Effect.wp m (fun _ => Holding held c) E s

theorem steady_pure {α : Type} (a : α) : Steady (pure a : Method α) := fun _ _ _ _ h => h

theorem steady_copyOut (size datalen : Nat) (written : Bytes) :
    Steady (Effect.lift (copyOut size datalen written)) := by
  intro held c s E h
  unfold copyOut
  split
  · exact h
  · trivial

theorem steady_client {α : Type} (f : MQClient → α) : Steady (client f) := fun _ _ _ _ h => h

theorem Steady.bind {α β : Type} {m : Method α} {k : α → Method β} (hm : Steady m)
    (hk : ∀ a, Steady (k a)) : Steady (m >>= k) := by
  intro held c s E h
  exact Effect.wp_seq (hm held c s E h) fun a s' hs' => hk a held c s' E hs'

theorem steady_ite {α : Type} {p : Prop} [Decidable p] {m n : Method α} (hm : Steady m)
    (hn : Steady n) : Steady (if p then m else n) := by
  split
  · exact hm
  · exact hn

theorem steady_mqget (hobj : MQHOBJ) (size : Nat) : Steady (mqi (mqget hobj size)) := by
  intro held c s E h
  apply wp_mqi_call h
  intro r
  refine ⟨held, ?_, fun _ hs' => hs'⟩
  unfold getEvent
  split <;> rfl

theorem steady_mqinq (hobj : MQHOBJ) : Steady (mqi (mqinq hobj)) := by
  intro held c s E h
  exact wp_mqi_call h fun _ => ⟨held, rfl, fun _ hs' => hs'⟩

theorem steady_mqput (hobj : MQHOBJ) (replyToQ message : Bytes) :
    Steady (mqi (mqput hobj replyToQ message)) := by
  intro held c s E h
  exact wp_mqi_call h fun _ => ⟨held, rfl, fun _ hs' => hs'⟩

/-- The reply loop, by induction on the turns that are left. -/
theorem steady_readResponses (replyHobj : MQHOBJ) (n : Nat) (responses : List Bytes) :
    Steady (readResponses replyHobj n responses) := by
  induction n generalizing responses with
  | zero => exact steady_pure _
  | succ n ih =>
      refine (steady_mqget _ _).bind fun r => ?_
      refine steady_ite (steady_pure _) ((steady_copyOut _ _ _).bind fun response => ?_)
      exact steady_ite (steady_pure _) (ih _)

/-- The publication loop, by induction on the messages that may still be read. -/
theorem steady_readPublications (hobj : MQHOBJ) (n : Nat) (messages : List MQMessage) :
    Steady (readPublications hobj n messages) := by
  induction n generalizing messages with
  | zero => exact steady_pure _
  | succ n ih =>
      refine (steady_mqget _ _).bind fun r => ?_
      exact steady_ite (steady_pure _) ((steady_copyOut _ _ _).bind fun data => ih _)

theorem steady_receivePublications : Steady receivePublications := by
  have hloop (subs : List SubHandle) (messages : List MQMessage) :
      Steady (receiveFrom subs messages) := by
    induction subs generalizing messages with
    | nil => exact steady_pure _
    | cons sub subs ih => exact (steady_readPublications _ _ _).bind fun _ => ih _
  exact (steady_client _).bind fun c => steady_ite (steady_pure _) (hloop _ _)

theorem steady_getMessagesFromHandle (hobj : MQHOBJ) (maxMessages : Nat) :
    Steady (getMessagesFromHandle hobj maxMessages) :=
  (steady_client _).bind fun _ => steady_ite (steady_pure _) (steady_readPublications _ _ _)

/-! ## Methods that open and close -/

section OpenClose

variable {held : Multiset Resource} {c : MQClient} {s : Session}
  {E : StdException → Session → Prop}

/-- A field of blanks is not the name of an exporter queue. -/
theorem closeOption_openQueue (name : Bytes) :
    MQOD.closeOption
      { objectType := .q, objectName := name, dynamicQName := List.replicate 48 blank } =
      .none := by
  have hblank : (ascii "EXPORTER.").isPrefixOf (List.replicate 48 blank) = false := by decide
  unfold MQOD.closeOption
  rw [if_neg (by rw [hblank]; exact fun h => Bool.false_ne_true h.2)]

theorem wp_openQueue {queueName : Bytes} {options : Int32} (h : Holding held c s) :
    Effect.wp (openQueue queueName options)
      (fun hobj s' => hobj ≠ 0 ∧ Holding (.object hobj .none ::ₘ held) c s')
      (fun _ => Holding held c) s := by
  apply Effect.wp_seq (wp_mqopen h)
  rintro r s' (⟨hcc, hs'⟩ | ⟨hcc, hs'⟩)
  · rw [if_pos hcc]
    exact hs'
  · rw [if_neg hcc]
    rw [closeOption_openQueue] at hs'
    exact ⟨r.handle.property, hs'⟩

theorem wp_openDynamicQueue {queueName dynamicQName : Bytes} {options : Int32}
    (hname : (ascii "EXPORTER.").isPrefixOf (strncpy 48 dynamicQName) = true)
    (h : Holding held c s) :
    Effect.wp (openDynamicQueue queueName options dynamicQName)
      (fun q s' => q.1 ≠ 0 ∧ Holding (.object q.1 .deletePurge ::ₘ held) c s')
      (fun _ => Holding held c) s := by
  apply Effect.wp_seq (wp_mqopen h)
  rintro r s' (⟨hcc, hs'⟩ | ⟨hcc, hs'⟩)
  · rw [if_pos hcc]
    exact hs'
  · rw [if_neg hcc]
    unfold MQOD.closeOption at hs'
    rw [if_pos ⟨rfl, hname⟩] at hs'
    exact ⟨r.handle.property, hs'⟩

/-- An `open_queue` whose exception is turned into "none". -/
theorem wp_attempt {α : Type} {m : Method α} {Q : α → Session → Prop} {R : Session → Prop}
    (hm : Effect.wp m Q (fun _ => R) s) :
    Effect.wp (Effect.tryCatch (some <$> m) fun _ => pure none)
      (fun x s' => (∃ a, x = some a ∧ Q a s') ∨ (x = none ∧ R s')) E s := by
  rw [Effect.wp_tryCatch, Effect.wp_map]
  refine Effect.wp_mono hm ?_ ?_
  · intro a s' ha
    exact Or.inl ⟨a, rfl, ha⟩
  · intro _ s' hs'
    exact Or.inr ⟨rfl, hs'⟩

theorem wp_closeQueue {hobj : MQHOBJ} (hne : hobj ≠ 0)
    (h : Holding (.object hobj .none ::ₘ held) c s) :
    Effect.wp (closeQueue hobj) (fun _ => Holding held c) E s := wp_closeWhen hne h

/-- Closing a subscription: the subscription first, and then its queue. -/
theorem wp_closeSubscription {sub : SubHandle} (hsub : sub.Valid)
    (h : Holding (sub.resources + held) c s) :
    Effect.wp (closeSubscription sub) (fun _ => Holding held c) E s := by
  have hcons : sub.resources + held =
      .object sub.hsub .removeSub ::ₘ .object sub.hobj .deletePurge ::ₘ held := by
    unfold SubHandle.resources
    rw [Multiset.insert_eq_cons, Multiset.cons_add, Multiset.singleton_add]
  rw [hcons] at h
  apply Effect.wp_seq (wp_closeWhen hsub.1 h)
  intro _ s' hs'
  exact wp_closeWhen hsub.2 hs'

/-- A queue to be deleted that is closed before the end. -/
theorem wp_purgeThen {α : Type} {hobj : MQHOBJ} {a : α}
    (h : Holding (.object hobj .deletePurge ::ₘ held) c s) :
    Effect.wp (mqi (mqclose hobj .deletePurge) >>= fun _ => pure a)
      (fun _ => Holding held c) E s :=
  Effect.wp_seq (wp_mqclose h) fun _ _ hs' => hs'

end OpenClose

theorem steady_inquireQueue (queueName : Bytes) : Steady (inquireQueue queueName) := by
  refine (steady_client _).bind fun connected => steady_ite (steady_pure _) ?_
  intro held c s E h
  apply Effect.wp_seq (wp_attempt (wp_openQueue h))
  rintro _ s' (⟨hobj, rfl, hne, hs'⟩ | ⟨rfl, hs'⟩)
  · apply Effect.wp_seq (steady_mqinq hobj _ _ _ _ hs')
    intro r s'' hs''
    exact Effect.wp_seq (wp_closeQueue hne hs'') fun _ _ h => h
  · exact hs'

theorem steady_getQueueStats (queueName : Bytes) : Steady (getQueueStats queueName) := by
  refine (steady_inquireQueue _).bind fun r => ?_
  cases r with
  | none => exact steady_pure _
  | some r => exact steady_ite (steady_pure _) (steady_pure _)

theorem steady_getQueueInfo (queueName : Bytes) : Steady (getQueueInfo queueName) := by
  refine (steady_inquireQueue _).bind fun r => ?_
  cases r with
  | none => exact steady_pure _
  | some r => exact steady_ite (steady_pure _) (steady_pure _)

theorem steady_getQueueHandles (queueName : Bytes) : Steady (getQueueHandles queueName) :=
  (steady_inquireQueue _).bind fun _ => steady_pure _

/-- The reply queue is deleted on each of the four ways out. -/
theorem steady_sendPcfCommand (cmd : Bytes) : Steady (sendPcfCommand cmd) := by
  refine (steady_client _).bind fun connected => steady_ite (steady_pure _) ?_
  intro held c s E h
  apply Effect.wp_seq (wp_attempt (wp_openDynamicQueue (by decide) h))
  rintro _ s (⟨⟨replyHobj, replyName⟩, rfl, hne, h⟩ | ⟨rfl, h⟩)
  · dsimp only
    split
    · exact wp_purgeThen h
    apply Effect.wp_seq (wp_attempt (wp_openQueue h))
    rintro _ s (⟨cmdHobj, rfl, hcmd, h⟩ | ⟨rfl, h⟩)
    · apply Effect.wp_seq (steady_mqput _ _ _ _ _ _ _ h)
      intro put s h
      apply Effect.wp_seq (wp_closeQueue hcmd h)
      intro _ s h
      split
      · exact wp_purgeThen h
      · apply Effect.wp_seq (steady_readResponses _ _ _ _ _ _ _ h)
        intro responses s h
        exact wp_purgeThen h
    · exact wp_purgeThen h
  · exact h

/-- The subscription and its queue are closed behind the `MQGET`. -/
theorem steady_subscribeAndGet (topicString : Bytes) : Steady (subscribeAndGet topicString) := by
  refine (steady_client _).bind fun connected => steady_ite (steady_pure _) ?_
  intro held c s E h
  apply Effect.wp_seq (wp_attempt (wp_openDynamicQueue (by decide) h))
  rintro _ s (⟨⟨destHobj, destName⟩, rfl, hne, h⟩ | ⟨rfl, h⟩)
  · apply Effect.wp_seq (wp_mqsub h)
    rintro sub s (⟨hcc, h⟩ | ⟨hcc, h⟩)
    · rw [if_pos hcc]
      exact wp_purgeThen h
    rw [if_neg hcc]
    apply Effect.wp_seq (steady_mqget _ _ _ _ _ _ h)
    intro r s h
    apply Effect.wp_seq (wp_closeWhen sub.handle.property h)
    intro _ s h
    apply Effect.wp_seq (wp_closeWhen hne h)
    intro _ s h
    exact steady_ite (steady_pure _)
      ((steady_copyOut _ _ _).bind fun data => steady_pure _) _ _ _ _ h
  · exact h

/-! ## Methods that the client's fields account for -/

theorem Balanced.exists_holding {extra : Multiset Resource} {p : Phase} {s : Session}
    (h : Balanced extra p s) :
    ∃ c : MQClient, c.Valid ∧ c.phase = p ∧ Holding (extra + c.resources) c s :=
  ⟨s.client, h.valid, h.phase, h.holding⟩

section Client

variable {extra : Multiset Resource} {p : Phase} {c : MQClient} {s : Session}
  {E : StdException → Session → Prop}

/-- A steady method keeps the invariant. -/
theorem Steady.balanced {α : Type} {m : Method α} (hm : Steady m) (h : Balanced extra p s) :
    Effect.wp m (fun _ => Balanced extra p) E s := by
  obtain ⟨c, hc, hp, h⟩ := h.exists_holding
  exact Effect.wp_mono (hm _ _ _ E h) (fun _ s' hs' => hs'.balanced hc hp) fun _ _ he => he

theorem MQClient.Valid.platform (hc : c.Valid) (platform : Int32) :
    MQClient.Valid { c with platform } := ⟨hc.stats, hc.acct, hc.subs, hc.linked⟩

/-- `detect_platform` closes the queue manager's object again. -/
theorem wp_detectPlatform (hc : c.Valid) (h : Holding (extra + c.resources) c s) :
    Effect.wp detectPlatform (fun _ => Balanced extra c.phase) E s := by
  have hset (platform : Int32) (s : Session) (h : Holding (extra + c.resources) c s) :
      Effect.wp (update fun c => { c with platform }) (fun _ => Balanced extra c.phase) E s := by
    refine Effect.wp_mono (wp_update h) ?_ fun _ _ he => he
    intro _ s' hs'
    exact hs'.balanced (hc.platform platform) rfl
  apply Effect.wp_seq (wp_mqopen h)
  rintro r s (⟨hcc, h⟩ | ⟨hcc, h⟩)
  · rw [if_pos hcc]
    exact hset _ s h
  · rw [if_neg hcc]
    apply Effect.wp_seq (steady_mqinq _ _ _ _ _ h)
    intro inq s h
    apply Effect.wp_seq (wp_mqclose h)
    intro _ s h
    split
    · exact hset _ s h
    · exact hset _ s h

/-- A first connection. -/
theorem wp_connect (h : Balanced extra p s) (hp : p.connected = false) :
    Effect.wp connect (fun _ => Balanced extra { p with connected := true })
      (fun _ => Balanced extra p) s := by
  obtain ⟨c, hc, rfl, hheld⟩ := h.exists_holding
  have hlinked : c.linked = false := hp
  obtain ⟨⟨hconn, hstats⟩, hacct⟩ : (c.connected = false ∧ c.statsOpen = false) ∧
      c.acctOpen = false := by
    simpa only [MQClient.linked, Bool.or_eq_false_iff] using hlinked
  apply Effect.wp_seq (wp_client hheld)
  rintro _ s ⟨rfl, h⟩
  rw [if_neg (by rw [hconn]; exact Bool.false_ne_true)]
  apply Effect.wp_seq (wp_client h)
  rintro config s ⟨-, h⟩
  apply Effect.wp_seq (wp_mqconnx (clientConn config) h)
  rintro r s (⟨hcc, h⟩ | ⟨hcc, h⟩)
  · rw [if_pos hcc]
    exact h.balanced hc rfl
  · rw [if_neg hcc]
    apply Effect.wp_seq (wp_update h)
    intro _ s h
    have hc' : MQClient.Valid { c with connected := true } :=
      ⟨hc.stats, hc.acct, hc.subs, fun _ => by simp [MQClient.linked]⟩
    have hres : extra + MQClient.resources { c with connected := true } =
        .connection ::ₘ (extra + c.resources) := by
      unfold MQClient.resources
      simp only [MQClient.linked, hconn, hstats, hacct, Bool.or_false, heldIf_true,
        heldIf_false, Multiset.add_zero, Multiset.zero_add, Multiset.singleton_add,
        Multiset.add_cons]
    rw [← hres] at h
    refine Effect.wp_mono (wp_detectPlatform hc' h) ?_ fun _ _ he => he
    intro _ s' hs'
    have hphase : MQClient.phase { c with connected := true } =
        { c.phase with connected := true } := by
      simp [MQClient.phase, MQClient.linked]
    rwa [hphase] at hs'

/-- The subscriptions are closed one after the other. -/
theorem wp_unsubscribeAll {held : Multiset Resource}
    (hsubs : ∀ sub ∈ c.subscriptions, sub.Valid)
    (h : Holding (subResources c.subscriptions + held) c s) :
    Effect.wp unsubscribeAll (fun _ => Holding held { c with subscriptions := [] }) E s := by
  apply Effect.wp_seq (wp_client h)
  rintro _ s ⟨rfl, h⟩
  -- the invariant: the subscriptions that are left are still held
  refine Effect.wp_seq (Effect.wp_forEach (I := fun subs s =>
    (∀ sub ∈ subs, sub.Valid) ∧ Holding (subResources subs + held) c s) ⟨hsubs, h⟩ ?_) ?_
  · rintro sub subs s ⟨hvalid, h⟩
    rw [subResources_cons, Multiset.add_assoc] at h
    refine Effect.wp_mono (wp_closeSubscription (hvalid sub List.mem_cons_self) h) ?_
      fun _ _ he => he
    intro _ s' hs'
    exact ⟨fun sub' hsub' => hvalid sub' (List.mem_cons_of_mem sub hsub'), hs'⟩
  · rintro _ s ⟨_, h⟩
    rw [subResources_nil, Multiset.zero_add] at h
    exact wp_update h

/-- One of the two queues, when `disconnect` closes it. -/
theorem wp_closeOpened {held : Multiset Resource} {isOpen : Bool} {hobj : MQHOBJ}
    {f : MQClient → MQClient} (hne : isOpen = true → hobj ≠ 0)
    (h : Holding (heldIf isOpen (.object hobj .none) + held) c s) :
    Effect.wp (Effect.when isOpen do
        closeQueue hobj
        update f)
      (fun _ => Holding held (if isOpen then f c else c)) E s := by
  cases isOpen with
  | false =>
      rw [heldIf_false, Multiset.zero_add] at h
      exact h
  | true =>
      rw [heldIf_true, Multiset.singleton_add] at h
      rw [Effect.wp_when, if_pos rfl]
      apply Effect.wp_seq (wp_closeQueue (hne rfl) h)
      intro _ s h
      exact wp_update h

theorem linked_eq_false (hlinked : c.linked = false) :
    c.connected = false ∧ c.statsOpen = false ∧ c.acctOpen = false := by
  simpa only [MQClient.linked, Bool.or_eq_false_iff, and_assoc] using hlinked

/-- A client without a connection accounts for nothing. -/
theorem MQClient.Valid.idle (hc : c.Valid) (hlinked : c.linked = false) :
    c.resources = 0 ∧ c.subscriptions = [] ∧ c.phase = {} := by
  obtain ⟨-, hstats, hacct⟩ := linked_eq_false hlinked
  have hsubs : c.subscriptions = [] := by
    by_contra hne
    rw [hc.linked hne] at hlinked
    cases hlinked
  unfold MQClient.resources MQClient.phase
  rw [hlinked, hstats, hacct, hsubs]
  exact ⟨rfl, rfl, rfl⟩

/-- A client that has let go of everything. -/
theorem Holding.balanced_idle (h : Holding extra c s) (hlinked : c.linked = false)
    (hsubs : c.subscriptions = []) : Balanced extra {} s := by
  obtain ⟨-, hstats, hacct⟩ := linked_eq_false hlinked
  have hc : c.Valid := by
    refine ⟨?_, ?_, ?_, fun h => absurd hsubs h⟩
    · rw [hstats]
      exact fun h => absurd h Bool.false_ne_true
    · rw [hacct]
      exact fun h => absurd h Bool.false_ne_true
    · rw [hsubs]
      exact fun _ h => absurd h List.not_mem_nil
  obtain ⟨hres, -, hphase⟩ := hc.idle hlinked
  rw [← Multiset.add_zero extra, ← hres] at h
  exact h.balanced hc hphase

/-- `disconnect` gives back everything that the client holds. -/
theorem wp_disconnect (h : Balanced extra p s) :
    Effect.wp disconnect (fun _ => Balanced extra {}) E s := by
  obtain ⟨c, hc, rfl, hheld⟩ := h.exists_holding
  apply Effect.wp_seq (wp_client hheld)
  rintro c s ⟨rfl, h⟩
  rcases hlinked : c.linked with _ | _
  · obtain ⟨hconn, hstats, hacct⟩ := linked_eq_false hlinked
    obtain ⟨-, hsubs, hphase⟩ := hc.idle hlinked
    rw [if_pos (by simp [hconn, hstats, hacct, hsubs])]
    exact h.balanced hc hphase
  · rw [if_neg fun hidle => by simp [MQClient.linked, hidle] at hlinked]
    have hres : extra + c.resources =
        subResources c.subscriptions +
          (heldIf c.statsOpen (.object c.statsQueue .none) +
            (heldIf c.acctOpen (.object c.acctQueue .none) + (.connection ::ₘ extra))) := by
      unfold MQClient.resources
      rw [hlinked, heldIf_true, ← Multiset.singleton_add]
      abel
    rw [hres] at h
    apply Effect.wp_seq (wp_unsubscribeAll hc.subs h)
    intro _ s h
    apply Effect.wp_seq (wp_closeOpened hc.stats h)
    intro _ s h
    apply Effect.wp_seq (wp_closeOpened hc.acct h)
    intro _ s h
    apply Effect.wp_seq (wp_mqdisc h)
    intro _ s h
    refine Effect.wp_mono (wp_update h) ?_ fun _ _ he => he
    intro _ s h
    refine h.balanced_idle rfl ?_
    cases c.statsOpen <;> cases c.acctOpen <;> rfl

/-- The methods that open a queue and keep its handle in the fields. -/
theorem wp_openInto {queueName what : Bytes} {options : Int32} {p' : Phase}
    {f : MQHOBJ → MQClient → MQClient} (hc : c.Valid) (h : Holding (extra + c.resources) c s)
    (hf : c.connected = true → ∀ hobj, hobj ≠ 0 → (f hobj c).Valid ∧
      (f hobj c).resources = .object hobj .none ::ₘ c.resources ∧ (f hobj c).phase = p') :
    Effect.wp (do
        let connected ← client MQClient.connected
        if ¬ connected then throwRuntimeError what
        else
          let hobj ← openQueue queueName options
          update (f hobj))
      (fun _ => Balanced extra p') (fun _ => Balanced extra c.phase) s := by
  apply Effect.wp_seq (wp_client h)
  rintro _ s ⟨rfl, h⟩
  split
  · exact h.balanced hc rfl
  · next hconn =>
      refine Effect.wp_seq (Effect.wp_mono (wp_openQueue h) (fun _ _ h => h) fun _ _ h =>
        h.balanced hc rfl) ?_
      rintro hobj s ⟨hne, h⟩
      obtain ⟨hvalid, hres, hphase⟩ := hf (by simpa using hconn) hobj hne
      refine Effect.wp_mono (wp_update h) ?_ fun _ _ he => he
      intro _ s h
      rw [← Multiset.add_cons, ← hres] at h
      exact h.balanced hvalid hphase

/-- The statistics queue, on a client that has not opened one. -/
theorem wp_openStatsQueue {queueName : Bytes} (h : Balanced extra p s)
    (hp : p.statsOpened = false) :
    Effect.wp (openStatsQueue queueName)
      (fun _ => Balanced extra { p with statsOpened := true }) (fun _ => Balanced extra p) s := by
  obtain ⟨c, hc, rfl, hheld⟩ := h.exists_holding
  have hstats : c.statsOpen = false := hp
  refine wp_openInto hc hheld fun hconn hobj hne => ⟨?_, ?_, ?_⟩
  · exact ⟨fun _ => hne, hc.acct, hc.subs, fun _ => by simp [MQClient.linked]⟩
  · unfold MQClient.resources MQClient.linked
    simp only [hconn, hstats, Bool.true_or, heldIf_true, heldIf_false,
      ← Multiset.singleton_add]
    abel
  · simp [MQClient.phase, MQClient.linked, hconn]

/-- The accounting queue, on a client that has not opened one. -/
theorem wp_openAccountingQueue {queueName : Bytes} (h : Balanced extra p s)
    (hp : p.acctOpened = false) :
    Effect.wp (openAccountingQueue queueName)
      (fun _ => Balanced extra { p with acctOpened := true }) (fun _ => Balanced extra p) s := by
  obtain ⟨c, hc, rfl, hheld⟩ := h.exists_holding
  have hacct : c.acctOpen = false := hp
  refine wp_openInto hc hheld fun hconn hobj hne => ⟨?_, ?_, ?_⟩
  · exact ⟨hc.stats, fun _ => hne, hc.subs, fun _ => by simp [MQClient.linked]⟩
  · unfold MQClient.resources MQClient.linked
    simp only [hconn, hacct, Bool.true_or, heldIf_true, heldIf_false,
      ← Multiset.singleton_add]
    abel
  · simp [MQClient.phase, MQClient.linked, hconn]

/-- A broken connection is still one to be given up as long as a queue is open. -/
theorem wp_setDisconnected (hc : c.Valid) (hopen : (c.statsOpen || c.acctOpen) = true)
    (h : Holding (extra + c.resources) c s) :
    Effect.wp (update fun c => { c with connected := false })
      (fun _ => Balanced extra c.phase) E s := by
  have hlinked : MQClient.linked { c with connected := false } = c.linked := by
    unfold MQClient.linked
    rw [Bool.or_assoc, Bool.or_assoc, hopen, Bool.or_true, Bool.or_true]
  have hres : MQClient.resources { c with connected := false } = c.resources := by
    unfold MQClient.resources
    rw [hlinked]
  refine Effect.wp_mono (wp_update h) ?_ fun _ _ he => he
  intro _ s h
  rw [← hres] at h
  refine h.balanced ⟨hc.stats, hc.acct, hc.subs, fun hne => ?_⟩ ?_
  · rw [hlinked]
    exact hc.linked hne
  · unfold MQClient.phase
    rw [hlinked]

theorem wp_getMessageFrom {hobj : MQHOBJ} {queueType : QueueType} (hc : c.Valid)
    (hopen : (c.statsOpen || c.acctOpen) = true) (h : Holding (extra + c.resources) c s) :
    Effect.wp (getMessageFrom hobj queueType) (fun _ => Balanced extra c.phase)
      (fun _ => Balanced extra c.phase) s := by
  apply Effect.wp_seq (steady_mqget _ _ _ _ _ _ h)
  intro r s h
  split
  · split
    · exact h.balanced hc rfl
    split
    · exact Effect.wp_seq (wp_setDisconnected hc hopen h) fun _ _ h => h
    · exact h.balanced hc rfl
  · exact ((steady_copyOut _ _ _).bind fun data => steady_pure _).balanced (h.balanced hc rfl)

theorem wp_getMessage {queueType : QueueType} (h : Balanced extra p s) :
    Effect.wp (getMessage queueType) (fun _ => Balanced extra p) (fun _ => Balanced extra p)
      s := by
  obtain ⟨c, hc, rfl, hheld⟩ := h.exists_holding
  apply Effect.wp_seq (wp_client hheld)
  rintro c s ⟨rfl, h⟩
  cases queueType with
  | stats =>
      dsimp only
      split
      · exact h.balanced hc rfl
      · next hopen =>
          have hopen : c.statsOpen = true := by simpa using hopen
          exact wp_getMessageFrom hc (by rw [hopen, Bool.true_or]) h
  | accounting =>
      dsimp only
      split
      · exact h.balanced hc rfl
      · next hopen =>
          have hopen : c.acctOpen = true := by simpa using hopen
          exact wp_getMessageFrom hc (by rw [hopen, Bool.or_true]) h

/-- The loop of `get_all_messages`, by induction on its turns. -/
theorem wp_getAllMessages {queueType : QueueType} (h : Balanced extra p s) :
    Effect.wp (getAllMessages queueType) (fun _ => Balanced extra p)
      (fun _ => Balanced extra p) s := by
  have hdrain (fuel : Nat) : ∀ (messages : List MQMessage) (s : Session), Balanced extra p s →
      Effect.wp (drain queueType fuel messages) (fun _ => Balanced extra p)
        (fun _ => Balanced extra p) s := by
    induction fuel with
    | zero => exact fun _ _ _ => trivial
    | succ fuel ih =>
        intro messages s h
        apply Effect.wp_seq (wp_getMessage h)
        intro msg s h
        cases msg with
        | none => exact h
        | some msg => exact ih _ s h
  exact hdrain _ _ _ h

/-! ## Subscriptions -/

/-- The part of the subscriptions in what the fields account for. -/
theorem resources_subscriptions (c : MQClient) (subscriptions : List SubHandle) :
    MQClient.resources { c with subscriptions } =
      MQClient.resources { c with subscriptions := [] } + subResources subscriptions := by
  unfold MQClient.resources
  rw [subResources_nil, Multiset.add_zero]
  rfl

/-- A subscription to a destination queue that the method has opened. -/
theorem resources_mk (hobj hsub : MQHOBJ) (held : Multiset Resource) :
    Resource.object hsub .removeSub ::ₘ .object hobj .deletePurge ::ₘ held =
      (SubHandle.mk hobj hsub).resources + held := by
  unfold SubHandle.resources
  rw [Multiset.insert_eq_cons, Multiset.cons_add, Multiset.singleton_add]

/-- A subscription that is made is the caller's. -/
theorem wp_createSubscription {topicString : Bytes} (h : Balanced extra p s) :
    Effect.wp (createSubscription topicString)
      (fun r s' => (r = none ∧ Balanced extra p s') ∨
        ∃ sub : SubHandle, r = some sub ∧ sub.Valid ∧ Balanced (sub.resources + extra) p s')
      E s := by
  obtain ⟨c, hc, rfl, hheld⟩ := h.exists_holding
  apply Effect.wp_seq (wp_client hheld)
  rintro _ s ⟨rfl, h⟩
  split
  · exact Or.inl ⟨rfl, h.balanced hc rfl⟩
  apply Effect.wp_seq (wp_attempt (wp_openDynamicQueue (by decide) h))
  rintro _ s (⟨⟨outHobj, name⟩, rfl, hne, h⟩ | ⟨rfl, h⟩)
  · apply Effect.wp_seq (wp_mqsub h)
    rintro sub s (⟨hcc, h⟩ | ⟨hcc, h⟩)
    · rw [if_pos hcc]
      apply Effect.wp_seq (wp_mqclose h)
      intro _ s h
      exact Or.inl ⟨rfl, h.balanced hc rfl⟩
    · rw [if_neg hcc]
      rw [resources_mk, ← Multiset.add_assoc] at h
      exact Or.inr ⟨⟨outHobj, sub.handle⟩, rfl, ⟨sub.handle.property, hne⟩, h.balanced hc rfl⟩
  · exact Or.inl ⟨rfl, h.balanced hc rfl⟩

/-- A subscription that is made goes to the list of the client. -/
theorem wp_subscribeToTopic {topicString : Bytes} (h : Balanced extra p s) :
    Effect.wp (subscribeToTopic topicString) (fun _ => Balanced extra p) E s := by
  obtain ⟨c, hc, rfl, hheld⟩ := h.exists_holding
  apply Effect.wp_seq (wp_client hheld)
  rintro _ s ⟨rfl, h⟩
  split
  · exact h.balanced hc rfl
  next hconn =>
  have hlinked : c.linked = true := by
    have hconn : c.connected = true := by simpa using hconn
    simp [MQClient.linked, hconn]
  apply Effect.wp_seq (wp_attempt (wp_openDynamicQueue (by decide) h))
  rintro _ s (⟨⟨destHobj, name⟩, rfl, hne, h⟩ | ⟨rfl, h⟩)
  · apply Effect.wp_seq (wp_mqsub h)
    rintro sub s (⟨hcc, h⟩ | ⟨hcc, h⟩)
    · rw [if_pos hcc]
      apply Effect.wp_seq (wp_mqclose h)
      intro _ s h
      exact h.balanced hc rfl
    · rw [if_neg hcc]
      apply Effect.wp_seq (wp_update h)
      intro _ s h
      refine Holding.balanced
        (c := { c with subscriptions := c.subscriptions ++ [⟨destHobj, sub.handle⟩] })
        ?_ ⟨hc.stats, hc.acct, ?_, fun _ => hlinked⟩ rfl
      · rw [resources_mk] at h
        have hres : c.resources = MQClient.resources { c with subscriptions := [] } +
            subResources c.subscriptions := resources_subscriptions c c.subscriptions
        rw [hres] at h
        rw [resources_subscriptions, subResources_append, subResources_cons, subResources_nil]
        convert h using 1
        abel
      · intro sub' hsub'
        rcases List.mem_append.mp hsub' with hsub' | hsub'
        · exact hc.subs sub' hsub'
        · rw [List.mem_singleton.mp hsub']
          exact ⟨sub.handle.property, hne⟩
  · exact h.balanced hc rfl

/-- `unsubscribe_all` as a call of its own. -/
theorem wp_unsubscribeAll_balanced (h : Balanced extra p s) :
    Effect.wp unsubscribeAll (fun _ => Balanced extra p) E s := by
  obtain ⟨c, hc, rfl, hheld⟩ := h.exists_holding
  have hres : extra + c.resources = subResources c.subscriptions +
      (extra + MQClient.resources { c with subscriptions := [] }) := by
    rw [← Multiset.add_assoc, Multiset.add_comm _ extra, Multiset.add_assoc,
      Multiset.add_comm (subResources _), ← resources_subscriptions]
  rw [hres] at hheld
  refine Effect.wp_mono (wp_unsubscribeAll hc.subs hheld) ?_ fun _ _ he => he
  intro _ s h
  exact h.balanced ⟨hc.stats, hc.acct, fun _ h => absurd h List.not_mem_nil,
    fun h => absurd rfl h⟩ rfl

end Client

end IbmmqExporter.Mq
