/-
  Mq/Answers.lean --- inquiries that the queue manager answers.

  An inquiry is a sequence of calls, and the queue manager has an answer to each: the
  reply queue and the command queue are opened, the command is put, the replies are there
  to the last of them; a queue is opened, and gives its attributes.

  WHAT THE FILE PROVES.  An inquiry with these answers returns what they say, has used
  them up, and leaves the client as it is.
-/
import IbmmqExporter.Foundation.Supply
import IbmmqExporter.Mq.DiscoveredNames
import IbmmqExporter.Mq.Replies

set_option autoImplicit false

namespace IbmmqExporter.Mq

open Foundation Effect Pcf

/-- The answers to come. -/
def Session.supply (s : Session) : List Reply := s.mqi.supply

/-- The method returns `a` when it is given these answers, and leaves the client `c` as it
is. -/
abbrev Returns {α : Type} (c : MQClient) (method : Method α) (answers : List Reply) (a : α) :
    Prop :=
  Uses Session.supply (fun s => s.client = c) method answers fun b s => b = a ∧ s.client = c

section Calls

variable {α : Type} {c : MQClient}

theorem returns_pure (a : α) : Returns c (pure a) [] a := uses_pure fun _ hs => ⟨rfl, hs⟩

theorem returns_call {event : Reply → MqiEvent} {result : Reply → α} (r : Reply) :
    Returns c (mqi (call event result)) [r] (result r) := by
  intro s rest hs hsupply
  exact ⟨_, _, mqi_call_cons hsupply, rfl, rfl, hs⟩

theorem returns_openQueue (queueName : Bytes) (options : Int32) {r : Reply}
    (hcc : r.cc ≠ .failed) : Returns c (openQueue queueName options) [r] r.handle.1 := by
  intro s rest hs hsupply
  obtain ⟨s', hrun, hclient, hrest⟩ := openQueue_answered queueName options hsupply hcc
  exact ⟨_, s', hrun, hrest, rfl, hclient.trans hs⟩

/-- A queue that cannot be opened. -/
theorem returns_refused (queueName : Bytes) (options : Int32) {r : Reply}
    (hcc : r.cc = .failed) :
    Returns c (tryCatch (some <$> openQueue queueName options) fun _ => return none) [r]
      none := by
  intro s rest hs hsupply
  obtain ⟨e, event, hrun⟩ : ∃ e event,
      openQueue queueName options s = (.raised e, s.answered event rest) := by
    unfold openQueue mqopen
    rw [bind_of_ok (mqi_call_cons hsupply), id, if_pos hcc]
    exact ⟨_, _, rfl⟩
  have hmap : (some <$> openQueue queueName options) s = (.raised e, s.answered event rest) := by
    rw [← bind_pure_comp]
    exact bind_of_raised hrun
  exact ⟨none, s.answered event rest, tryCatch_of_raised hmap, rfl, rfl, hs⟩

theorem returns_openDynamicQueue (queueName : Bytes) (options : Int32) (dynamicQName : Bytes)
    {r : Reply} (hcc : r.cc ≠ .failed) (hnamed : trimBlanks r.objectName ≠ []) :
    Returns c (openDynamicQueue queueName options dynamicQName) [r]
      (r.handle.1, trimBlanks r.objectName) := by
  intro s rest hs hsupply
  obtain ⟨s', hrun, hclient, hrest⟩ :=
    openDynamicQueue_answered queueName options dynamicQName hsupply hcc hnamed
  exact ⟨_, s', hrun, hrest, rfl, hclient.trans hs⟩

theorem returns_closeQueue (hobj : Handle) (r : Reply) :
    Returns c (closeQueue hobj.1) [r] () := by
  unfold closeQueue
  rw [when_pos hobj.2]
  exact (returns_call r).finally (returns_pure _)

/-- A method whose exceptions are caught. -/
theorem Returns.caught {method : Method α} {answers : List Reply} {a : α}
    (h : Returns c method answers a) {handler : StdException → Method (Option α)} :
    Returns c (tryCatch (some <$> method) handler) answers (some a) := by
  have hmap : Returns c (some <$> method) answers (some a) :=
    Uses.map (h.mono (fun _ hs => hs) fun _ _ hb => ⟨congrArg some hb.1, hb.2⟩)
  exact hmap.tryCatch

end Calls

/-! ## Commands -/

/-- The answers to the calls of a command, with at most as many replies as are read. -/
structure Asked where
  sent : Sent
  replies : ReplyStream
  deleted : Reply
  few : replies.messages.length ≤ 1000

/-- The answers in the order of the calls. -/
def Asked.answers (x : Asked) : List Reply :=
  x.sent.answers ++ ((x.replies.init ++ [x.replies.last]) ++ [x.deleted])

section Commands

variable {α : Type} {c : MQClient}

theorem returns_readResponses (hobj : MQHOBJ) {replies : ReplyStream}
    (hfew : replies.messages.length ≤ 1000) :
    Returns c (readResponses hobj 1000 []) (replies.init ++ [replies.last])
      replies.messages := by
  intro s rest hs hsupply
  obtain ⟨s', hrun, hclient, hrest⟩ := readResponses_stream hobj replies 1000 [] hsupply
  have hlength : (replies.init ++ [replies.last]).length ≤ 1000 := by
    rwa [ReplyStream.messages, List.length_map] at hfew
  rw [List.nil_append, List.take_of_length_le hfew] at hrun
  rw [List.drop_of_length_le hlength] at hrest
  exact ⟨_, s', hrun, hrest, rfl, hclient.trans hs⟩

/-- A command returns all the replies. -/
theorem returns_sendPcfCommand (hc : c.connected = true) (x : Asked) (cmd : Bytes) :
    Returns c (sendPcfCommand cmd) x.answers x.replies.messages := by
  show Uses _ _ _ ([x.sent.replyQueue] ++ ([x.sent.commandQueue] ++ ([x.sent.put] ++
    ([x.sent.close] ++ ((x.replies.init ++ [x.replies.last]) ++ [x.deleted]))))) _
  unfold sendPcfCommand
  refine uses_gets_then (fun s hs => congrArg MQClient.connected hs) ?_
  rw [if_neg (not_not.mpr hc)]
  have hreply := @returns_openDynamicQueue c (ascii "SYSTEM.DEFAULT.MODEL.QUEUE")
    mqooInputExclusive (ascii "EXPORTER.*") _ x.sent.replyQueue_ok x.sent.replyQueue_named
  have hcommand := @returns_openQueue c (ascii "SYSTEM.ADMIN.COMMAND.QUEUE") mqooOutput _
    x.sent.commandQueue_ok
  refine Uses.then hreply.caught ?_
  dsimp only
  rw [if_neg (not_or.mpr ⟨x.sent.replyQueue_named, x.sent.replyQueue_dynamic⟩)]
  refine Uses.then hcommand.caught ?_
  refine Uses.then (returns_call x.sent.put) ?_
  refine Uses.then (returns_closeQueue x.sent.commandQueue.handle x.sent.close) ?_
  rw [if_neg (show ¬ (id x.sent.put).cc = .failed from x.sent.put_ok)]
  refine Uses.then (returns_readResponses _ x.few) ?_
  exact (returns_call x.deleted).finally (returns_pure _)

end Commands

/-! ## Queues -/

/-- The answers about a queue; without a handle there are no others. -/
structure Inquired where
  opened : Reply
  inquired : Reply
  closed : Reply

namespace Inquired

/-- The answers in the order of the calls. -/
def answers (x : Inquired) : List Reply :=
  if x.opened.cc = .failed then [x.opened] else [x.opened, x.inquired, x.closed]

/-- What `get_queue_info` makes of the attributes. -/
def info (x : Inquired) (queueName : Bytes) : Option QueueInfo :=
  if x.opened.cc = .failed ∨ x.inquired.cc = .failed then none
  else
    some
      { queueName, currentDepth := x.inquired.attrs.getD 0 0
        openInputCount := x.inquired.attrs.getD 1 0
        openOutputCount := x.inquired.attrs.getD 2 0
        maxQueueDepth := x.inquired.attrs.getD 3 0 }

end Inquired

section Queues

variable {c : MQClient} (hc : c.connected = true)
include hc

theorem returns_inquireQueue (x : Inquired) (queueName : Bytes) :
    Returns c (inquireQueue queueName) x.answers
      (if x.opened.cc = .failed then none else some x.inquired) := by
  unfold inquireQueue Inquired.answers
  refine uses_gets_then (fun s hs => congrArg MQClient.connected hs) ?_
  rw [if_neg (not_not.mpr hc)]
  split
  · next hfailed =>
      exact Uses.finally (returns_refused queueName mqooInquire hfailed) (returns_pure none)
  · next hopened =>
      have hopen := @returns_openQueue c queueName mqooInquire _ hopened
      show Uses _ _ _ ([x.opened] ++ ([x.inquired] ++ [x.closed])) _
      refine Uses.then hopen.caught (Uses.then (returns_call x.inquired) ?_)
      exact Uses.finally (returns_closeQueue x.opened.handle x.closed) (returns_pure _)

/-- A queue is asked about. -/
theorem returns_getQueueInfo (x : Inquired) (queueName : Bytes) :
    Returns c (getQueueInfo queueName) x.answers (x.info queueName) := by
  unfold getQueueInfo
  refine (returns_inquireQueue hc x queueName).finally ?_
  unfold Inquired.info
  by_cases hopened : x.opened.cc = .failed
  · rw [if_pos hopened, if_pos (Or.inl hopened)]
    exact returns_pure none
  · rw [if_neg hopened]
    dsimp only
    by_cases hinquired : x.inquired.cc = .failed
    · rw [if_pos hinquired, if_pos (Or.inr hinquired)]
      exact returns_pure none
    · rw [if_neg hinquired, if_neg (not_or.mpr ⟨hopened, hinquired⟩)]
      exact returns_pure _

end Queues

/-! ## Discoveries -/

/-- The answers to the inquiry of a discovery, and the names that the replies encode. -/
structure Discovery where
  asked : Asked
  responses : List NameResponse
  formed : ∀ resp ∈ responses, resp.WellFormed
  wide : ∀ resp ∈ responses, resp.Wide
  encodes : asked.replies.messages = responses.map NameResponse.bytes

/-- The answers to the inquiry. -/
def Discovery.answers (x : Discovery) : List Reply := x.asked.answers

/-- The names that are found. -/
def Discovery.found (x : Discovery) : List Bytes :=
  foundQueues (x.responses.flatMap NameResponse.names)

/-- A discovery finds the names. -/
theorem returns_discoverQueues {c : MQClient} (hc : c.connected = true) (x : Discovery)
    (pattern : Bytes) : Returns c (discoverQueues pattern) x.answers x.found := by
  refine (returns_sendPcfCommand hc x.asked _).finally ?_
  refine uses_lift ?_ fun _ hs => ⟨rfl, hs⟩
  rw [x.encodes]
  exact discoverIn_names x.formed x.wide

end IbmmqExporter.Mq
