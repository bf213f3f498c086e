/-
  Metrics/Delivery.lean --- what becomes of the messages that a cycle removes.

  An `MQGET` of `get_all_messages` removes a message from its queue for good.  The
  messages of the call are in a local variable until the call returns, so that they
  are lost when a later `MQGET` fails for a reason other than that there is no message
  left; `collect_messages` then carries on with an empty batch.

  WHAT THE FILE PROVES.  When a cycle hands on every message that it has removed, as a
  condition on what the queue manager answers.
-/
import IbmmqExporter.Metrics.Batch
import IbmmqExporter.Mq.Drain

set_option autoImplicit false

namespace IbmmqExporter.Metrics

open Foundation Pcf Mq

/-! ## Removing and handing on -/

/-- The messages that a cycle removes from the queues. -/
def removedIn (cfg : Config) (c : MetricsCollector) : List Bytes :=
  (Effect.recorded MetricsCollector.log (collectAllMessages cfg) c).filterMap MqiEvent.taken

/-- The messages that a cycle hands to one of the `process` functions. -/
def handedIn (cfg : Config) (c : MetricsCollector) : List Bytes :=
  ((collectAllMessages cfg c).2.handed.drop c.handed.length).map fun e => e.2.data

/-- A cycle stays in defined behaviour and hands on every message it has removed, as
often as it has removed it. -/
structure HandsOn (cfg : Config) (c : MetricsCollector) : Prop where
  defined : (collectAllMessages cfg c).1 ≠ .undefined
  handed : (removedIn cfg c).Subperm (handedIn cfg c)

/-! ## What the queue manager answers -/

/-- The answers to the `MQGET`s on a queue, if it is open. -/
def MetricsCollector.answers (c : MetricsCollector) (queueType : QueueType) (d : Drain) :
    List Reply :=
  if c.session.client.isOpen queueType then d.replies else []

/-- The collector before a cycle in which the queue manager answers with one drain for
each open queue. -/
def MetricsCollector.facing (c : MetricsCollector) (stats acct : Drain) (rest : List Reply) :
    MetricsCollector :=
  { c with session := { c.session with mqi := { c.session.mqi with
      supply := c.answers .stats stats ++ (c.answers .accounting acct ++ rest) } } }

/-- The messages that the cycle finds in a queue. -/
def MetricsCollector.finds (c : MetricsCollector) (queueType : QueueType) (d : Drain) :
    List MQMessage :=
  if c.session.client.isOpen queueType then d.messages.map (messageOf queueType) else []

/-- Those that `collect_messages` makes a batch of. -/
def MetricsCollector.keeps (c : MetricsCollector) (queueType : QueueType) (d : Drain) :
    List MQMessage :=
  if d.Empties then c.finds queueType d else []

/-- What the answers have to be for a cycle to hand on every message: the messages fit
into the buffer, a queue in which there is one is read until it is empty, and none but
the last is refused by the parser. -/
structure Delivers (c : MetricsCollector) (stats acct : Drain) : Prop where
  fits : ∀ msg ∈ c.finds .stats stats ++ c.finds .accounting acct,
    msg.data.length ≤ getMessageSize
  stats_empties : c.finds .stats stats = [] ∨ stats.Empties
  acct_empties : c.finds .accounting acct = [] ∨ acct.Empties
  accepted : ∀ e ∈ (batchOf (c.finds .stats stats) (c.finds .accounting acct)).dropLast,
    AcceptedMessage e.2.data

/-! ## One queue -/

section OneQueue

variable {c : MetricsCollector} {queueType : QueueType} {d : Drain} {rest : List Reply}

theorem keeps_sublist (c : MetricsCollector) (queueType : QueueType) (d : Drain) :
    (c.keeps queueType d).Sublist (c.finds queueType d) := by
  unfold MetricsCollector.keeps
  split
  · exact List.Sublist.refl _
  · exact List.nil_sublist _

theorem keeps_eq_finds :
    c.keeps queueType d = c.finds queueType d ↔ c.finds queueType d = [] ∨ d.Empties := by
  unfold MetricsCollector.keeps
  split
  · next hempties => exact iff_of_true rfl (Or.inr hempties)
  · next hempties =>
      rw [or_iff_left hempties]
      exact eq_comm

/-- The state behind `collect_messages`. -/
structure Collected (queueType : QueueType) (c : MetricsCollector) (d : Drain)
    (rest : List Reply) (c' : MetricsCollector) : Prop where
  supply_eq : c'.session.mqi.supply = rest
  taken_eq : ∃ new, c'.log = c.log ++ new ∧
    new.filterMap MqiEvent.taken = (c.finds queueType d).map MQMessage.data
  handed_eq : c'.handed = c.handed
  isOpen_eq : c'.session.client.isOpen = c.session.client.isOpen

theorem taken_gots {messages : List Reply} {hobj : MQHOBJ}
    (hfits : ∀ r ∈ messages, r.message.length ≤ getMessageSize) :
    (messages.map fun r => MqiEvent.got hobj getMessageSize r.message).filterMap
      MqiEvent.taken = messages.map Reply.message := by
  induction messages with
  | nil => rfl
  | cons r messages ih =>
      obtain ⟨hr, hmessages⟩ := List.forall_mem_cons.mp hfits
      have htaken : (MqiEvent.got hobj getMessageSize r.message).taken = some r.message :=
        if_pos hr
      rw [List.map_cons, List.filterMap_cons_some htaken, ih hmessages, List.map_cons]

/-- `collect_messages` when all messages fit: it returns in any case. -/
theorem collectMessages_fits (hs : c.session.mqi.supply = c.answers queueType d ++ rest)
    (hfits : ∀ msg ∈ c.finds queueType d, msg.data.length ≤ getMessageSize) :
    ∃ c', collectMessages queueType c = (.ok (c.keeps queueType d), c') ∧
      Collected queueType c d rest c' := by
  unfold MetricsCollector.answers at hs
  unfold MetricsCollector.keeps
  by_cases hopen : c.session.client.isOpen queueType = true
  · have hfinds : c.finds queueType d = d.messages.map (messageOf queueType) := if_pos hopen
    rw [if_pos hopen] at hs
    have hdrain : d.Fits := by
      intro r hr
      refine hfits (messageOf queueType r) ?_
      rw [hfinds]
      exact List.mem_map_of_mem hr
    obtain ⟨hdrained, hok, hraised⟩ := getAllMessages_fits hopen hs hdrain
    rcases hget : getAllMessages queueType c.session with ⟨o, s'⟩
    rw [hget] at hdrained hok hraised
    have hcollected : Collected queueType c d rest { c with session := s' } := by
      refine ⟨hdrained.supply_eq, ⟨_, hdrained.log_eq, ?_⟩, rfl, ?_⟩
      · rw [List.filterMap_append, taken_gots hdrain, hfinds, List.map_map]
        exact List.append_nil _
      · funext queueType'
        exact (congrArg (fun k => MQClient.isOpen k queueType') hdrained.client_eq).trans
          (afterFailure_isOpen ..)
    refine ⟨{ c with session := s' }, ?_, hcollected⟩
    unfold collectMessages
    by_cases hempties : d.Empties
    · rw [if_pos hempties, hfinds]
      exact Effect.tryCatch_of_ok (session_ok (hget.trans (by rw [← hok hempties])))
    · obtain ⟨e, he⟩ := hraised hempties
      rw [if_neg hempties]
      exact Effect.tryCatch_of_raised (session_raised (hget.trans (by rw [← he])))
  · have hclosed := Bool.eq_false_of_not_eq_true hopen
    have hfinds : c.finds queueType d = [] := if_neg hopen
    rw [if_neg hopen] at hs
    refine ⟨c, ?_, hs, ⟨[], (List.append_nil _).symm, ?_⟩, rfl, rfl⟩
    · rw [hfinds, ite_self]
      exact Effect.tryCatch_of_ok (session_ok (getAllMessages_closed hclosed))
    · rw [hfinds]
      rfl

theorem collectMessages_long (hs : c.session.mqi.supply = c.answers queueType d ++ rest)
    (hlong : ¬ ∀ msg ∈ c.finds queueType d, msg.data.length ≤ getMessageSize) :
    (collectMessages queueType c).1 = .undefined := by
  unfold MetricsCollector.answers at hs
  unfold MetricsCollector.finds at hlong
  by_cases hopen : c.session.client.isOpen queueType = true
  · rw [if_pos hopen] at hs hlong
    have hdrain : ¬ d.Fits := by
      intro hfits
      refine hlong fun msg hmsg => ?_
      obtain ⟨r, hr, rfl⟩ := List.mem_map.mp hmsg
      exact hfits r hr
    have hget : getAllMessages queueType c.session =
        (.undefined, (getAllMessages queueType c.session).2) := by
      rw [← getAllMessages_long hopen hs hdrain]
    unfold collectMessages
    rw [Effect.tryCatch_of_undefined (session_undefined hget)]
  · rw [if_neg hopen] at hlong
    exact absurd (fun _ h => absurd h List.not_mem_nil) hlong

end OneQueue

/-! ## A cycle -/

section Cycle

variable {c c₁ : MetricsCollector} {stats acct : Drain}

theorem finds_of_isOpen (h : c₁.session.client.isOpen = c.session.client.isOpen)
    (queueType : QueueType) (d : Drain) : c₁.finds queueType d = c.finds queueType d := by
  unfold MetricsCollector.finds
  rw [h]

theorem keeps_of_isOpen (h : c₁.session.client.isOpen = c.session.client.isOpen)
    (queueType : QueueType) (d : Drain) : c₁.keeps queueType d = c.keeps queueType d := by
  unfold MetricsCollector.keeps
  rw [finds_of_isOpen h]

theorem answers_of_isOpen (h : c₁.session.client.isOpen = c.session.client.isOpen)
    (queueType : QueueType) (d : Drain) :
    c₁.answers queueType d = c.answers queueType d := by
  unfold MetricsCollector.answers
  rw [h]

/-- When all messages fit, the cycle removes what it finds and hands on a beginning of
what it keeps. -/
theorem collectAllMessages_fits (cfg : Config) (rest : List Reply)
    (hfits : ∀ msg ∈ c.finds .stats stats ++ c.finds .accounting acct,
      msg.data.length ≤ getMessageSize) :
    ∃ done, done <+: batchOf (c.keeps .stats stats) (c.keeps .accounting acct) ∧
      (done = batchOf (c.keeps .stats stats) (c.keeps .accounting acct) ↔
        ∀ e ∈ (batchOf (c.keeps .stats stats) (c.keeps .accounting acct)).dropLast,
          AcceptedMessage e.2.data) ∧
      (collectAllMessages cfg (c.facing stats acct rest)).1 ≠ .undefined ∧
      removedIn cfg (c.facing stats acct rest) =
        (c.finds .stats stats ++ c.finds .accounting acct).map MQMessage.data ∧
      handedIn cfg (c.facing stats acct rest) = done.map fun e => e.2.data := by
  rw [List.forall_mem_append] at hfits
  have hstatsSupply : (c.facing stats acct rest).session.mqi.supply =
      (c.facing stats acct rest).answers .stats stats ++
        (c.answers .accounting acct ++ rest) := rfl
  obtain ⟨c₁, hstats, hstats'⟩ := collectMessages_fits (c := c.facing stats acct rest)
    hstatsSupply hfits.1
  have hopen : c₁.session.client.isOpen = c.session.client.isOpen := hstats'.isOpen_eq
  have hacctSupply : c₁.session.mqi.supply = c₁.answers .accounting acct ++ rest := by
    rw [hstats'.supply_eq, answers_of_isOpen hopen]
  obtain ⟨c₂, hacct, hacct'⟩ := collectMessages_fits hacctSupply
    (by rw [finds_of_isOpen hopen]; exact hfits.2)
  rw [keeps_of_isOpen hopen] at hacct
  obtain ⟨done, hprefix, hdone, hsession, hwhole, hok, hraised⟩ :=
    updateMetricsFromMessages_hands cfg (c.keeps .stats stats) (c.keeps .accounting acct) c₂
  have hrun : collectAllMessages cfg (c.facing stats acct rest) =
      updateMetricsFromMessages cfg (c.keeps .stats stats) (c.keeps .accounting acct) c₂ := by
    unfold collectAllMessages
    rw [Effect.bind_of_ok hstats, Effect.bind_of_ok hacct]
    rfl
  refine ⟨done, hprefix, hwhole, ?_, ?_, ?_⟩
  · rw [hrun]
    intro hundefined
    by_cases hall : ∀ e ∈ batchOf (c.keeps .stats stats) (c.keeps .accounting acct),
        AcceptedMessage e.2.data
    · rw [hok hall] at hundefined
      cases hundefined
    · rw [hraised hall] at hundefined
      cases hundefined
  · obtain ⟨newStats, hlogStats, htakenStats⟩ := hstats'.taken_eq
    obtain ⟨newAcct, hlogAcct, htakenAcct⟩ := hacct'.taken_eq
    rw [finds_of_isOpen hopen] at htakenAcct
    have hlog : MetricsCollector.log (collectAllMessages cfg (c.facing stats acct rest)).2 =
        c.log ++ (newStats ++ newAcct) := by
      unfold MetricsCollector.log at *
      rw [hrun, hsession, hlogAcct, hlogStats, List.append_assoc]
      rfl
    unfold removedIn Effect.recorded
    rw [hlog]
    refine (congrArg _ List.drop_left).trans ?_
    rw [List.filterMap_append, htakenStats, htakenAcct, List.map_append]
    rfl
  · have hhanded : c₂.handed = c.handed := hacct'.handed_eq.trans hstats'.handed_eq
    unfold handedIn
    rw [hrun, hdone, hhanded]
    exact congrArg _ List.drop_left

/-- A message that does not fit ends the cycle. -/
theorem collectAllMessages_long (cfg : Config) (rest : List Reply)
    (hlong : ¬ ∀ msg ∈ c.finds .stats stats ++ c.finds .accounting acct,
      msg.data.length ≤ getMessageSize) :
    (collectAllMessages cfg (c.facing stats acct rest)).1 = .undefined := by
  rw [List.forall_mem_append] at hlong
  have hstatsSupply : (c.facing stats acct rest).session.mqi.supply =
      (c.facing stats acct rest).answers .stats stats ++
        (c.answers .accounting acct ++ rest) := rfl
  unfold collectAllMessages
  by_cases hstats : ∀ msg ∈ c.finds .stats stats, msg.data.length ≤ getMessageSize
  · obtain ⟨c₁, hstats₁, hstats'⟩ := collectMessages_fits (c := c.facing stats acct rest)
      hstatsSupply hstats
    have hopen : c₁.session.client.isOpen = c.session.client.isOpen := hstats'.isOpen_eq
    have hacctSupply : c₁.session.mqi.supply = c₁.answers .accounting acct ++ rest := by
      rw [hstats'.supply_eq, answers_of_isOpen hopen]
    have hacct : (collectMessages .accounting c₁).1 = .undefined := by
      apply collectMessages_long hacctSupply
      rw [finds_of_isOpen hopen]
      exact fun h => hlong ⟨hstats, h⟩
    have hacct' : collectMessages .accounting c₁ =
        (.undefined, (collectMessages .accounting c₁).2) := by rw [← hacct]
    rw [Effect.bind_of_ok hstats₁, Effect.bind_of_undefined hacct']
  · have hundefined : (collectMessages .stats (c.facing stats acct rest)).1 = .undefined :=
      collectMessages_long hstatsSupply hstats
    have hstats' : collectMessages .stats (c.facing stats acct rest) =
        (.undefined, (collectMessages .stats (c.facing stats acct rest)).2) := by
      rw [← hundefined]
    rw [Effect.bind_of_undefined hstats']

theorem length_batchOf (statsMsgs acctMsgs : List MQMessage) :
    (batchOf statsMsgs acctMsgs).length = statsMsgs.length + acctMsgs.length := by
  unfold batchOf
  rw [List.length_append, List.length_map, List.length_map]

theorem map_data_batchOf (statsMsgs acctMsgs : List MQMessage) :
    (batchOf statsMsgs acctMsgs).map (fun e => e.2.data) =
      (statsMsgs ++ acctMsgs).map MQMessage.data := by
  unfold batchOf
  rw [List.map_append, List.map_append, List.map_map, List.map_map]
  rfl

end Cycle

/-- A cycle hands on every message that it removes if and only if the answers of the
queue manager are as in `Delivers`. -/
theorem handsOn_iff (cfg : Config) (c : MetricsCollector) (stats acct : Drain)
    (rest : List Reply) :
    HandsOn cfg (c.facing stats acct rest) ↔ Delivers c stats acct := by
  by_cases hfits : ∀ msg ∈ c.finds .stats stats ++ c.finds .accounting acct,
      msg.data.length ≤ getMessageSize
  · obtain ⟨done, hprefix, hwhole, hdefined, hremoved, hhanded⟩ :=
      collectAllMessages_fits cfg rest hfits
    have hdone : done.length ≤
        (c.keeps .stats stats).length + (c.keeps .accounting acct).length :=
      hprefix.length_le.trans_eq (length_batchOf _ _)
    have hstats := (keeps_sublist c .stats stats).length_le
    have hacct := (keeps_sublist c .accounting acct).length_le
    constructor
    · intro h
      -- a message that is missing anywhere is missing in number
      have hcount := h.handed.length_le
      rw [hremoved, hhanded, List.length_map, List.length_append, List.length_map] at hcount
      have hkeepsStats : c.keeps .stats stats = c.finds .stats stats :=
        (keeps_sublist c .stats stats).eq_of_length (by omega)
      have hkeepsAcct : c.keeps .accounting acct = c.finds .accounting acct :=
        (keeps_sublist c .accounting acct).eq_of_length (by omega)
      have hall : done = batchOf (c.keeps .stats stats) (c.keeps .accounting acct) := by
        apply hprefix.eq_of_length
        rw [length_batchOf]
        omega
      refine ⟨hfits, keeps_eq_finds.mp hkeepsStats, keeps_eq_finds.mp hkeepsAcct, ?_⟩
      rw [← hkeepsStats, ← hkeepsAcct]
      exact hwhole.mp hall
    · intro h
      rw [keeps_eq_finds.mpr h.stats_empties, keeps_eq_finds.mpr h.acct_empties] at hwhole
      refine ⟨hdefined, ?_⟩
      rw [hremoved, hhanded, hwhole.mpr h.accepted, map_data_batchOf]
  · refine iff_of_false (fun h => ?_) fun h => hfits h.fits
    exact h.defined (collectAllMessages_long cfg rest hfits)

/-- An `MQGET` that finds a message of a header alone. -/
def headerOnly : Reply := { cc := .ok, message := List.replicate 36 0 }

/-- One message, and then a connection that breaks. -/
def brokenDrain : Drain where
  messages := [headerOnly]
  stop := { cc := .failed, rc := mqrcConnectionBroken }
  found := by
    intro r hr
    rw [List.mem_singleton.mp hr]
    exact fun h => by cases h
  failed := rfl

/-- A collector with the statistics queue open. -/
def statsReader : MetricsCollector :=
  { session := { client := { connected := true, statsOpen := true } } }

/-- The message before a broken connection is removed and not handed on. -/
theorem not_handsOn_brokenDrain :
    ¬ ∀ (cfg : Config) (c : MetricsCollector) (stats acct : Drain) (rest : List Reply),
      HandsOn cfg (c.facing stats acct rest) := by
  intro h
  obtain ⟨-, hhanded⟩ := h { queueManager := ascii "QM1" } statsReader brokenDrain brokenDrain []
  have hlength := hhanded.length_le
  revert hlength
  decide

end IbmmqExporter.Metrics
