/-
  Metrics/Batch.lean --- a batch of messages, some of which may be malformed.

  WHAT THE FILE PROVES.  `update_metrics_from_messages` hands on the messages of a
  batch one after the other up to the first that `parse_message` throws on; what is
  left of the batch is lost with the exception.  So the whole batch is processed
  exactly when the parser accepts all of it.
-/
import IbmmqExporter.Metrics.Messages
import IbmmqExporter.Pcf.Encode
import IbmmqExporter.Pcf.Safety

set_option autoImplicit false

namespace IbmmqExporter.Metrics

open Foundation Pcf Mq

/-! ## One message -/

/-- The `process` function for the messages of a queue. -/
def process (cfg : Config) (e : QueueType × MQMessage) : Collect Unit :=
  match e.1 with
  | .stats => processStatisticsMessage cfg e.2
  | .accounting => processAccountingMessage cfg e.2

/-- The name that `parse_message` is given for the messages of a queue. -/
def parseType : QueueType → String
  | .stats => "statistics"
  | .accounting => "accounting"

/-- A message that is accepted is processed. -/
theorem process_accepted (cfg : Config) (e : QueueType × MQMessage) (c : MetricsCollector)
    (h : AcceptedMessage e.2.data) :
    ∃ c', process cfg e c = (.ok (), c') ∧ c'.handed = c.handed ++ [e] ∧
      c'.session = c.session := by
  obtain ⟨queueType, msg⟩ := e
  cases queueType with
  | stats =>
      obtain ⟨result, hresult⟩ := (parseMessage_decides msg.data "statistics").2.mpr h
      unfold process processStatisticsMessage
      rw [hresult]
      rcases result with _ | (stats | acct)
      · exact ⟨_, rfl, rfl, rfl⟩
      · exact ⟨_, rfl, rfl, rfl⟩
      · exact ⟨_, rfl, rfl, rfl⟩
  | accounting =>
      obtain ⟨result, hresult⟩ := (parseMessage_decides msg.data "accounting").2.mpr h
      unfold process processAccountingMessage
      rw [hresult]
      rcases result with _ | (stats | acct)
      · exact ⟨_, rfl, rfl, rfl⟩
      · exact ⟨_, rfl, rfl, rfl⟩
      · exact ⟨_, rfl, rfl, rfl⟩

theorem parseMessage_refused {data : Bytes} (msgType : String) (h : ¬ AcceptedMessage data) :
    parseMessage data msgType = .raised .lengthError := by
  obtain ⟨hcontained, hreturns⟩ := parseMessage_decides data msgType
  rcases hcontained with hret | hraised
  · exact absurd (hreturns.mp hret) h
  · exact hraised

/-- On a message that is not accepted the exception leaves the function. -/
theorem process_refused (cfg : Config) (e : QueueType × MQMessage) (c : MetricsCollector)
    (h : ¬ AcceptedMessage e.2.data) :
    process cfg e c = (.raised .lengthError, { c with handed := c.handed ++ [e] }) := by
  obtain ⟨queueType, msg⟩ := e
  cases queueType with
  | stats =>
      unfold process processStatisticsMessage
      rw [parseMessage_refused "statistics" h]
      rfl
  | accounting =>
      unfold process processAccountingMessage
      rw [parseMessage_refused "accounting" h]
      rfl

/-! ## A batch -/

/-- The messages of a batch, statistics first. -/
def batchOf (statsMsgs acctMsgs : List MQMessage) : List (QueueType × MQMessage) :=
  statsMsgs.map (fun msg => (.stats, msg)) ++ acctMsgs.map fun msg => (.accounting, msg)

/-- `update_metrics_from_messages` as one loop. -/
theorem updateMetricsFromMessages_eq (cfg : Config) (statsMsgs acctMsgs : List MQMessage) :
    updateMetricsFromMessages cfg statsMsgs acctMsgs =
      Effect.forEach (batchOf statsMsgs acctMsgs) (process cfg) >>= fun _ =>
        (platform >>= fun plat =>
          record fun r => r.set .collectionInfo (collectionLabels cfg plat) 1) := by
  unfold batchOf
  rw [Effect.forEach_append, Effect.forEach_map, Effect.forEach_map, bind_assoc]
  rfl

/-- The loop over a batch hands on a beginning of it: all of it if every message but
the last is accepted, and it returns if every message is. -/
theorem forEach_process (cfg : Config) (batch : List (QueueType × MQMessage))
    (c : MetricsCollector) :
    ∃ done, done <+: batch ∧
      (Effect.forEach batch (process cfg) c).2.handed = c.handed ++ done ∧
      (Effect.forEach batch (process cfg) c).2.session = c.session ∧
      (done = batch ↔ ∀ e ∈ batch.dropLast, AcceptedMessage e.2.data) ∧
      ((∀ e ∈ batch, AcceptedMessage e.2.data) →
        (Effect.forEach batch (process cfg) c).1 = .ok ()) ∧
      ((¬ ∀ e ∈ batch, AcceptedMessage e.2.data) →
        (Effect.forEach batch (process cfg) c).1 = .raised .lengthError) := by
  induction batch generalizing c with
  | nil =>
      refine ⟨[], List.prefix_rfl, (List.append_nil _).symm, rfl, ?_, fun _ => rfl, ?_⟩
      · exact iff_of_true rfl fun _ h => absurd h List.not_mem_nil
      · exact fun h => absurd (fun _ h => absurd h List.not_mem_nil) h
  | cons e batch ih =>
      by_cases he : AcceptedMessage e.2.data
      · obtain ⟨c', hc', hhanded, hsession⟩ := process_accepted cfg e c he
        obtain ⟨done, hprefix, hdone, hsession', hall, hok, hraised⟩ := ih c'
        unfold Effect.forEach
        rw [Effect.bind_of_ok hc']
        refine ⟨e :: done, List.cons_prefix_cons.mpr ⟨rfl, hprefix⟩, ?_, ?_, ?_, ?_, ?_⟩
        · rw [hdone, hhanded, List.append_assoc]
          rfl
        · rw [hsession', hsession]
        · rw [List.cons_inj_right, hall]
          cases batch with
          | nil => exact Iff.rfl
          | cons e' batch =>
              rw [List.dropLast_cons_cons, List.forall_mem_cons]
              exact ⟨fun h => ⟨he, h⟩, fun h => h.2⟩
        · intro h
          exact hok fun e' he' => h e' (List.mem_cons_of_mem e he')
        · intro h
          refine hraised fun hall => h ?_
          exact List.forall_mem_cons.mpr ⟨he, hall⟩
      · unfold Effect.forEach
        rw [Effect.bind_of_raised (process_refused cfg e c he)]
        refine ⟨[e], List.cons_prefix_cons.mpr ⟨rfl, List.nil_prefix⟩, rfl, rfl, ?_, ?_,
          fun _ => rfl⟩
        · cases batch with
          | nil => exact iff_of_true rfl fun _ h => absurd h List.not_mem_nil
          | cons e' batch =>
              refine iff_of_false (fun h => ?_) fun h => he (h e List.mem_cons_self)
              exact absurd (congrArg List.length h) (by simp)
        · exact fun h => absurd (h e List.mem_cons_self) he

/-- The same for the whole function: what follows the loops hands nothing on. -/
theorem updateMetricsFromMessages_hands (cfg : Config) (statsMsgs acctMsgs : List MQMessage)
    (c : MetricsCollector) :
    ∃ done, done <+: batchOf statsMsgs acctMsgs ∧
      (updateMetricsFromMessages cfg statsMsgs acctMsgs c).2.handed = c.handed ++ done ∧
      (updateMetricsFromMessages cfg statsMsgs acctMsgs c).2.session = c.session ∧
      (done = batchOf statsMsgs acctMsgs ↔
        ∀ e ∈ (batchOf statsMsgs acctMsgs).dropLast, AcceptedMessage e.2.data) ∧
      ((∀ e ∈ batchOf statsMsgs acctMsgs, AcceptedMessage e.2.data) →
        (updateMetricsFromMessages cfg statsMsgs acctMsgs c).1 = .ok ()) ∧
      ((¬ ∀ e ∈ batchOf statsMsgs acctMsgs, AcceptedMessage e.2.data) →
        (updateMetricsFromMessages cfg statsMsgs acctMsgs c).1 = .raised .lengthError) := by
  obtain ⟨done, hprefix, hdone, hsession, hwhole, hok, hraised⟩ :=
    forEach_process cfg (batchOf statsMsgs acctMsgs) c
  rw [updateMetricsFromMessages_eq]
  rcases hloop : Effect.forEach (batchOf statsMsgs acctMsgs) (process cfg) c with ⟨o, c'⟩
  rw [hloop] at hdone hsession hok hraised
  by_cases hall : ∀ e ∈ batchOf statsMsgs acctMsgs, AcceptedMessage e.2.data
  · have ho : o = .ok () := hok hall
    subst ho
    rw [Effect.bind_of_ok hloop]
    exact ⟨done, hprefix, hdone, hsession, hwhole, fun _ => rfl, fun h => absurd hall h⟩
  · have ho : o = .raised .lengthError := hraised hall
    subst ho
    rw [Effect.bind_of_raised hloop]
    exact ⟨done, hprefix, hdone, hsession, hwhole, fun h => absurd h hall, fun _ => rfl⟩

/-- A message is parsed inside its bytes and without an exception. -/
def ParsedSafely (e : QueueType × MQMessage) : Prop :=
  (parseMessage e.2.data (parseType e.1)).Returns

/-- A batch goes through: every message is parsed, the call returns, and it has
handed on every message of the batch. -/
structure GoesThrough (cfg : Config) (statsMsgs acctMsgs : List MQMessage)
    (c : MetricsCollector) : Prop where
  parsed : ∀ e ∈ batchOf statsMsgs acctMsgs, ParsedSafely e
  returns : (updateMetricsFromMessages cfg statsMsgs acctMsgs c).1.Returns
  handed : (updateMetricsFromMessages cfg statsMsgs acctMsgs c).2.handed =
    c.handed ++ batchOf statsMsgs acctMsgs

/-- A batch goes through if and only if the parser accepts each of its messages. -/
theorem goesThrough_iff (cfg : Config) (statsMsgs acctMsgs : List MQMessage)
    (c : MetricsCollector) :
    GoesThrough cfg statsMsgs acctMsgs c ↔
      ∀ msg ∈ statsMsgs ++ acctMsgs, AcceptedMessage msg.data := by
  have hbatch : (∀ msg ∈ statsMsgs ++ acctMsgs, AcceptedMessage msg.data) ↔
      ∀ e ∈ batchOf statsMsgs acctMsgs, AcceptedMessage e.2.data := by
    unfold batchOf
    simp only [List.mem_append, List.mem_map, or_imp, forall_and, forall_exists_index, and_imp,
      forall_apply_eq_imp_iff₂]
  rw [hbatch]
  constructor
  · intro h e he
    exact (parseMessage_decides e.2.data (parseType e.1)).2.mp (h.parsed e he)
  · intro hall
    obtain ⟨done, -, hdone, -, hwhole, hok, -⟩ :=
      updateMetricsFromMessages_hands cfg statsMsgs acctMsgs c
    have hdoneAll : done = batchOf statsMsgs acctMsgs :=
      hwhole.mpr fun e he => hall e (List.mem_of_mem_dropLast he)
    refine ⟨?_, ?_, ?_⟩
    · intro e he
      exact (parseMessage_decides e.2.data (parseType e.1)).2.mpr (hall e he)
    · rw [hok hall]
      exact Outcome.returns_ok ()
    · rw [hdone, hdoneAll]

/-- A message with a list of one string whose length is given as minus one. -/
def negativeLength : MQMessage :=
  { type := QueueType.stats.text
    data := List.replicate 36 0 ++ encodeStructure mqcftStringList mqcaQName
      (encodeInt32 0 ++ (encodeInt32 1 ++ encodeInt32 (-1))) }

theorem parseParameters_negativeLength :
    (match parseParameters (negativeLength.data.drop 36) with
      | .ok _ => true
      | _ => false) = false := by decide +kernel

/-- A batch of `negativeLength` alone does not go through. -/
theorem not_goesThrough_negativeLength :
    ¬ ∀ (cfg : Config) (statsMsgs acctMsgs : List MQMessage) (c : MetricsCollector),
      GoesThrough cfg statsMsgs acctMsgs c := by
  intro h
  obtain ⟨hparsed, -, -⟩ := h { queueManager := ascii "QM1" } [negativeLength] [] {}
  have haccepted : AcceptedMessage negativeLength.data :=
    (parseMessage_decides _ _).2.mp (hparsed (.stats, negativeLength) List.mem_cons_self)
  rcases haccepted with hshort | haccepted
  · exact absurd hshort (by decide)
  · obtain ⟨params, hparams⟩ := (parseParameters_decides _).2.mpr haccepted
    have heval := parseParameters_negativeLength
    rw [hparams] at heval
    cases heval

end IbmmqExporter.Metrics
