/-
  Mq/Drain.lean --- what `get_all_messages` takes from a queue.

  A drain is what the queue manager answers to the `MQGET`s of one call: messages,
  and then an `MQGET` that fails.  Every call that comes to an end has met one.

  WHAT THE FILE PROVES.  The call removes the messages of the drain from the queue.
  It returns them if the failing `MQGET` says that there is no message left, and
  throws for any other reason, and with it drops what it has removed.
-/
import IbmmqExporter.Mq.Buffers

set_option autoImplicit false

namespace IbmmqExporter.Mq

open Foundation

/-! ## One message -/

/-- The buffer of `get_message`. -/
abbrev getMessageSize : Nat := 100 * 1024

/-- A queue is open. -/
def MQClient.isOpen (c : MQClient) : QueueType → Bool
  | .stats => c.statsOpen
  | .accounting => c.acctOpen

/-- The handle of a queue. -/
def MQClient.queue (c : MQClient) : QueueType → MQHOBJ
  | .stats => c.statsQueue
  | .accounting => c.acctQueue

/-- The message that a call has removed from a queue: an `MQGET` leaves a message that
does not fit into its buffer where it is. -/
def MqiEvent.taken : MqiEvent → Option Bytes
  | .got _ size message => if message.length ≤ size then some message else none
  | _ => none

/-- The message that `get_message` makes of an answer. -/
def messageOf (queueType : QueueType) (r : Reply) : MQMessage :=
  { data := r.message, type := queueType.text, msgType := r.md.msgType,
    putDate := r.md.putDate, putTime := r.md.putTime, format := r.md.format,
    msgId := r.md.msgId }

/-- What an `MQGET` that fails makes of the client. -/
def MQClient.afterFailure (c : MQClient) (rc : Int32) : MQClient :=
  if rc = mqrcConnectionBroken then { c with connected := false } else c

theorem afterFailure_isOpen (c : MQClient) (rc : Int32) (queueType : QueueType) :
    (c.afterFailure rc).isOpen queueType = c.isOpen queueType := by
  unfold MQClient.afterFailure
  split <;> rfl

section GetMessage

variable {queueType : QueueType} {s : Session} {r : Reply} {supply : List Reply}

theorem getMessage_closed (h : s.client.isOpen queueType = false) :
    getMessage queueType s = (.ok none, s) := by
  cases queueType with
  | stats =>
      have hclosed : ¬ s.client.statsOpen = true := Bool.not_eq_true _ ▸ h
      show (if ¬ s.client.statsOpen = true then _ else _ : Method _) s = _
      rw [if_pos hclosed]
      rfl
  | accounting =>
      have hclosed : ¬ s.client.acctOpen = true := Bool.not_eq_true _ ▸ h
      show (if ¬ s.client.acctOpen = true then _ else _ : Method _) s = _
      rw [if_pos hclosed]
      rfl

theorem getMessage_open (h : s.client.isOpen queueType = true) :
    getMessage queueType s = getMessageFrom (s.client.queue queueType) queueType s := by
  cases queueType with
  | stats =>
      have hopen : s.client.statsOpen = true := h
      show (if ¬ s.client.statsOpen = true then _ else _ : Method _) s = _
      rw [if_neg (not_not.mpr hopen)]
      rfl
  | accounting =>
      have hopen : s.client.acctOpen = true := h
      show (if ¬ s.client.acctOpen = true then _ else _ : Method _) s = _
      rw [if_neg (not_not.mpr hopen)]
      rfl

theorem getResult_found (size : Nat) (hcc : r.cc ≠ .failed) :
    (getResult size r).cc ≠ .failed ∧ (getResult size r).datalen = r.message.length ∧
      (getResult size r).written = r.message.take size ∧ (getResult size r).md = r.md := by
  unfold getResult
  rw [if_neg hcc]
  refine ⟨?_, rfl, rfl, rfl⟩
  dsimp only
  split
  · exact hcc
  · exact fun h => by cases h

/-- A message that fits. -/
theorem getMessage_found (hopen : s.client.isOpen queueType = true)
    (hs : s.mqi.supply = r :: supply) (hcc : r.cc ≠ .failed)
    (hlen : r.message.length ≤ getMessageSize) :
    getMessage queueType s = (.ok (some (messageOf queueType r)),
      s.answered (.got (s.client.queue queueType) getMessageSize r.message) supply) := by
  obtain ⟨hfound, hdatalen, hwritten, hmd⟩ := getResult_found getMessageSize hcc
  rw [getMessage_open hopen]
  unfold getMessageFrom mqget
  rw [Effect.bind_of_ok (mqi_call_cons hs), if_neg hfound, hdatalen, hwritten, hmd,
    copyOut_fits hlen]
  unfold getEvent
  rw [if_neg hcc, List.take_of_length_le hlen, List.take_length]
  rfl

/-- A message that does not fit. -/
theorem getMessage_long (hopen : s.client.isOpen queueType = true)
    (hs : s.mqi.supply = r :: supply) (hcc : r.cc ≠ .failed)
    (hlen : getMessageSize < r.message.length) :
    (getMessage queueType s).1 = .undefined := by
  obtain ⟨hfound, hdatalen, hwritten, hmd⟩ := getResult_found getMessageSize hcc
  rw [getMessage_open hopen]
  unfold getMessageFrom mqget
  rw [Effect.bind_of_ok (mqi_call_cons hs), if_neg hfound, hdatalen, copyOut_overruns hlen]
  rfl

/-- An `MQGET` that fails. -/
theorem getMessage_failed (hopen : s.client.isOpen queueType = true)
    (hs : s.mqi.supply = r :: supply) (hcc : r.cc = .failed) :
    ∃ s', (getMessage queueType s).2 = s' ∧ s'.mqi.supply = supply ∧
      s'.log = s.log ++ [.gotNothing (s.client.queue queueType) r.rc] ∧
      s'.client = s.client.afterFailure r.rc ∧
      (r.rc = mqrcNoMsgAvailable → (getMessage queueType s).1 = .ok none) ∧
      (r.rc ≠ mqrcNoMsgAvailable → ∃ e, (getMessage queueType s).1 = .raised e) := by
  obtain ⟨hfailed, hrc⟩ := getResult_failed getMessageSize hcc
  rw [getMessage_open hopen]
  unfold getMessageFrom mqget MQClient.afterFailure
  rw [Effect.bind_of_ok (mqi_call_cons hs), if_pos hfailed, hrc]
  unfold getEvent
  rw [if_pos hcc]
  by_cases hnone : r.rc = mqrcNoMsgAvailable
  · rw [if_pos hnone, if_neg (by rw [hnone]; decide)]
    exact ⟨_, rfl, rfl, rfl, rfl, fun _ => rfl, fun h => absurd hnone h⟩
  · rw [if_neg hnone]
    by_cases hbroken : r.rc = mqrcConnectionBroken
    · rw [if_pos hbroken, if_pos hbroken]
      exact ⟨_, rfl, rfl, rfl, rfl, fun h => absurd h hnone, fun _ => ⟨_, rfl⟩⟩
    · rw [if_neg hbroken, if_neg hbroken]
      exact ⟨_, rfl, rfl, rfl, rfl, fun h => absurd h hnone, fun _ => ⟨_, rfl⟩⟩

end GetMessage

/-! ## A drain -/

/-- The answers to the `MQGET`s of a call of `get_all_messages`. -/
structure Drain where
  messages : List Reply
  stop : Reply
  found : ∀ r ∈ messages, r.cc ≠ .failed
  failed : stop.cc = .failed

/-- The answers in their order. -/
def Drain.replies (d : Drain) : List Reply := d.messages ++ [d.stop]

/-- All messages fit into the buffer. -/
def Drain.Fits (d : Drain) : Prop := ∀ r ∈ d.messages, r.message.length ≤ getMessageSize

/-- The failing `MQGET` says that there is no message left. -/
def Drain.Empties (d : Drain) : Prop := d.stop.rc = mqrcNoMsgAvailable

instance (d : Drain) : Decidable d.Empties := inferInstanceAs (Decidable (_ = _))

section Drains

variable {queueType : QueueType} {s : Session} {rest : List Reply}

/-- The state behind a drain. -/
structure Drained (queueType : QueueType) (s : Session) (messages : List Reply) (stop : Reply)
    (rest : List Reply) (s' : Session) : Prop where
  supply_eq : s'.mqi.supply = rest
  log_eq : s'.log = s.log ++
    (messages.map (fun r => MqiEvent.got (s.client.queue queueType) getMessageSize r.message) ++
      [.gotNothing (s.client.queue queueType) stop.rc])
  client_eq : s'.client = s.client.afterFailure stop.rc

/-- The loop of `get_all_messages` on messages that fit, by induction on them. -/
theorem drain_fits (messages : List Reply) (stop : Reply) (hstop : stop.cc = .failed)
    (fuel : Nat) (acc : List MQMessage) (hopen : s.client.isOpen queueType = true)
    (hs : s.mqi.supply = messages ++ stop :: rest) (hfuel : messages.length < fuel)
    (hfound : ∀ r ∈ messages, r.cc ≠ .failed)
    (hfits : ∀ r ∈ messages, r.message.length ≤ getMessageSize) :
    Drained queueType s messages stop rest (drain queueType fuel acc s).2 ∧
      (stop.rc = mqrcNoMsgAvailable →
        (drain queueType fuel acc s).1 = .ok (acc ++ messages.map (messageOf queueType))) ∧
      (stop.rc ≠ mqrcNoMsgAvailable → ∃ e, (drain queueType fuel acc s).1 = .raised e) := by
  induction messages generalizing fuel acc s with
  | nil =>
      obtain ⟨fuel, rfl⟩ := Nat.exists_eq_succ_of_ne_zero (Nat.ne_zero_of_lt hfuel)
      obtain ⟨s', hs', hsupply, hlog, hclient, hnone, hraise⟩ :=
        getMessage_failed hopen hs hstop
      have hget : getMessage queueType s = ((getMessage queueType s).1, s') := by rw [← hs']
      unfold drain
      by_cases hrc : stop.rc = mqrcNoMsgAvailable
      · rw [hnone hrc] at hget
        rw [Effect.bind_of_ok hget]
        refine ⟨⟨hsupply, hlog, hclient⟩, fun _ => ?_, fun h => absurd hrc h⟩
        rw [List.map_nil, List.append_nil]
        rfl
      · obtain ⟨e, he⟩ := hraise hrc
        rw [he] at hget
        rw [Effect.bind_of_raised hget]
        exact ⟨⟨hsupply, hlog, hclient⟩, fun h => absurd h hrc, fun _ => ⟨e, rfl⟩⟩
  | cons r messages ih =>
      obtain ⟨fuel, rfl⟩ := Nat.exists_eq_succ_of_ne_zero (Nat.ne_zero_of_lt hfuel)
      have hget := getMessage_found hopen hs (hfound r List.mem_cons_self)
        (hfits r List.mem_cons_self)
      unfold drain
      rw [Effect.bind_of_ok hget]
      obtain ⟨hdrained, hok, hraise⟩ := ih (s := s.answered _ _) fuel
        (acc ++ [messageOf queueType r]) hopen rfl (Nat.lt_of_succ_lt_succ hfuel)
        (fun r' hr' => hfound r' (List.mem_cons_of_mem r hr'))
        (fun r' hr' => hfits r' (List.mem_cons_of_mem r hr'))
      refine ⟨⟨hdrained.supply_eq, ?_, hdrained.client_eq⟩, ?_, hraise⟩
      · refine hdrained.log_eq.trans ?_
        rw [Session.answered_log, List.append_assoc]
        rfl
      · intro hrc
        refine (hok hrc).trans ?_
        rw [List.append_assoc]
        rfl

/-- A message that does not fit is the end of defined behaviour. -/
theorem drain_long (messages : List Reply) (stop : Reply) (fuel : Nat) (acc : List MQMessage)
    (hopen : s.client.isOpen queueType = true)
    (hs : s.mqi.supply = messages ++ stop :: rest) (hfuel : messages.length < fuel)
    (hfound : ∀ r ∈ messages, r.cc ≠ .failed)
    (hlong : ∃ r ∈ messages, getMessageSize < r.message.length) :
    (drain queueType fuel acc s).1 = .undefined := by
  induction messages generalizing fuel acc s with
  | nil =>
      obtain ⟨r, hr, -⟩ := hlong
      cases hr
  | cons r messages ih =>
      obtain ⟨fuel, rfl⟩ := Nat.exists_eq_succ_of_ne_zero (Nat.ne_zero_of_lt hfuel)
      have hcc := hfound r List.mem_cons_self
      unfold drain
      by_cases hr : r.message.length ≤ getMessageSize
      · rw [Effect.bind_of_ok (getMessage_found hopen hs hcc hr)]
        refine ih (s := s.answered _ _) fuel _ hopen rfl (Nat.lt_of_succ_lt_succ hfuel)
          (fun r' hr' => hfound r' (List.mem_cons_of_mem r hr')) ?_
        obtain ⟨r', hr', hlen⟩ := hlong
        rcases List.mem_cons.mp hr' with rfl | hr'
        · exact absurd hr (Nat.not_le.mpr hlen)
        · exact ⟨r', hr', hlen⟩
      · have hget : getMessage queueType s = (.undefined, (getMessage queueType s).2) := by
          rw [← getMessage_long hopen hs hcc (Nat.lt_of_not_le hr)]
        rw [Effect.bind_of_undefined hget]

variable {d : Drain}

theorem supply_drain (hs : s.mqi.supply = d.replies ++ rest) :
    s.mqi.supply = d.messages ++ d.stop :: rest := by
  rw [hs]
  exact List.append_assoc ..

theorem length_lt_fuel (hs : s.mqi.supply = d.replies ++ rest) :
    d.messages.length < s.mqi.supply.length + 1 := by
  rw [supply_drain hs, List.length_append, List.length_cons]
  omega

/-- `get_all_messages` on a drain whose messages fit. -/
theorem getAllMessages_fits (hopen : s.client.isOpen queueType = true)
    (hs : s.mqi.supply = d.replies ++ rest) (hfits : d.Fits) :
    Drained queueType s d.messages d.stop rest (getAllMessages queueType s).2 ∧
      (d.Empties →
        (getAllMessages queueType s).1 = .ok (d.messages.map (messageOf queueType))) ∧
      (¬ d.Empties → ∃ e, (getAllMessages queueType s).1 = .raised e) :=
  drain_fits d.messages d.stop d.failed _ [] hopen (supply_drain hs) (length_lt_fuel hs) d.found
    hfits

theorem getAllMessages_long (hopen : s.client.isOpen queueType = true)
    (hs : s.mqi.supply = d.replies ++ rest) (hlong : ¬ d.Fits) :
    (getAllMessages queueType s).1 = .undefined := by
  refine drain_long d.messages d.stop _ [] hopen (supply_drain hs) (length_lt_fuel hs) d.found ?_
  by_contra hnone
  refine hlong fun r hr => Nat.le_of_not_lt fun hlt => ?_
  exact hnone ⟨r, hr, hlt⟩

/-- A queue that is not open is not read. -/
theorem getAllMessages_closed (hclosed : s.client.isOpen queueType = false) :
    getAllMessages queueType s = (.ok [], s) := by
  unfold getAllMessages drain
  rw [Effect.bind_of_ok (getMessage_closed hclosed)]
  rfl

end Drains

end IbmmqExporter.Mq
