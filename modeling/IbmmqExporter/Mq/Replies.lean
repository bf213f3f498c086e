/-
  Mq/Replies.lean --- the replies to a PCF command.

  The command server answers a command with one message or with many, of which the last
  says so in its `Control` field.  `send_pcf_command` reads them in a loop of at most a
  thousand turns.

  WHAT THE FILE PROVES.  Of the replies, when each can be read, the first thousand are
  returned; so all of them are, and `discover_queues` sees all of them, if and only if
  there are at most a thousand.
-/
import IbmmqExporter.Mq.Discovery

set_option autoImplicit false

namespace IbmmqExporter.Mq

open Foundation Pcf

/-! ## Streams of replies -/

/-- `Control` is `MQCFC_LAST`. -/
def CarriesLast (message : Bytes) : Prop := 24 ≤ message.length ∧ uint32At message 20 = 1

instance (message : Bytes) : Decidable (CarriesLast message) :=
  inferInstanceAs (Decidable (_ ∧ _))

/-- The `MQGET` of a reply succeeds: it does not fail, and the buffer holds the reply. -/
def Readable (r : Reply) : Prop := r.cc ≠ .failed ∧ r.message.length ≤ 64 * 1024

instance (r : Reply) : Decidable (Readable r) := inferInstanceAs (Decidable (_ ∧ _))

/-- The answers to the `MQGET`s behind a command: exactly the last of the replies is
marked as the last. -/
structure ReplyStream where
  init : List Reply
  last : Reply
  readable : ∀ r ∈ init ++ [last], Readable r
  carries_last : CarriesLast last.message
  not_carries_last : ∀ r ∈ init, ¬ CarriesLast r.message

/-- The replies. -/
def ReplyStream.messages (x : ReplyStream) : List Bytes := (x.init ++ [x.last]).map Reply.message

/-! ## The loop -/

/-- One turn of the loop. -/
theorem readResponses_succ (hobj : MQHOBJ) (n : Nat) (acc : List Bytes) {s : Session}
    {r : Reply} {supply : List Reply} (hr : Readable r) (hs : s.mqi.supply = r :: supply) :
    readResponses hobj (n + 1) acc s =
      (if CarriesLast r.message then pure (acc ++ [r.message])
        else readResponses hobj n (acc ++ [r.message]))
        (s.answered (getEvent hobj (64 * 1024) r) supply) := by
  obtain ⟨hcc, hfits⟩ := hr
  rw [readResponses, mqget, Effect.bind_of_ok (mqi_call_cons hs)]
  simp only [getResult_fits hcc hfits, if_neg hcc, lift_copyOut hfits, pure_bind]
  rfl

/-- The loop returns as many replies as it has turns, or all of them. -/
theorem readResponses_stream (hobj : MQHOBJ) (x : ReplyStream) (n : Nat) (acc : List Bytes)
    {s : Session} {rest : List Reply} (hs : s.mqi.supply = (x.init ++ [x.last]) ++ rest) :
    ∃ s', readResponses hobj n acc s = (.ok (acc ++ x.messages.take n), s') ∧
      s'.client = s.client ∧ s'.mqi.supply = (x.init ++ [x.last]).drop n ++ rest := by
  obtain ⟨init, last, hreadable, hlast, hinit⟩ := x
  unfold ReplyStream.messages
  dsimp only at *
  induction init generalizing n acc s with
  | nil =>
      rw [List.nil_append, List.singleton_append] at hs
      cases n with
      | zero => exact ⟨s, by simp [readResponses], rfl, hs⟩
      | succ n =>
          have hturn := readResponses_succ hobj n acc (hreadable last (by simp)) hs
          rw [if_pos hlast] at hturn
          refine ⟨s.answered (getEvent hobj (64 * 1024) last) rest, ?_, rfl, ?_⟩
          · rw [hturn]
            simp
          · simp [Session.answered]
  | cons r init ih =>
      rw [List.cons_append, List.cons_append] at hs
      cases n with
      | zero => exact ⟨s, by simp [readResponses], rfl, hs⟩
      | succ n =>
          have hturn := readResponses_succ hobj n acc (hreadable r (by simp)) hs
          rw [if_neg (hinit r List.mem_cons_self)] at hturn
          obtain ⟨s', hrun, hclient, hsupply⟩ := ih n (acc ++ [r.message])
            (fun q hq => hreadable q (List.mem_cons_of_mem r hq))
            (fun q hq => hinit q (List.mem_cons_of_mem r hq))
            (s := s.answered (getEvent hobj (64 * 1024) r) (init ++ [last] ++ rest)) rfl
          refine ⟨s', ?_, hclient, hsupply⟩
          rw [hturn, hrun]
          simp

/-! ## A command -/

/-- The answers to the calls in front of the loop: the reply queue and the command queue
are opened, and the command is put. -/
structure Sent where
  replyQueue : Reply
  commandQueue : Reply
  put : Reply
  close : Reply
  replyQueue_ok : replyQueue.cc ≠ .failed
  replyQueue_named : trimBlanks replyQueue.objectName ≠ []
  replyQueue_dynamic :
    trimBlanks replyQueue.objectName ≠ ascii "SYSTEM.DEFAULT.MODEL.QUEUE"
  commandQueue_ok : commandQueue.cc ≠ .failed
  put_ok : put.cc ≠ .failed

/-- The answers in the order of the calls. -/
def Sent.answers (x : Sent) : List Reply := [x.replyQueue, x.commandQueue, x.put, x.close]

/-- The queue manager takes the command and gives the replies, and answers the call
behind them. -/
structure Answered (s : Session) (sent : Sent) (replies : ReplyStream) : Prop where
  connected : s.client.connected = true
  supply : ∃ close rest,
    s.mqi.supply = sent.answers ++ ((replies.init ++ [replies.last]) ++ close :: rest)

/-- Of the replies the first thousand are returned. -/
theorem sendPcfCommand_take {s : Session} {sent : Sent} {replies : ReplyStream}
    (h : Answered s sent replies) (cmd : Bytes) :
    (sendPcfCommand cmd s).1 = .ok (replies.messages.take 1000) := by
  obtain ⟨hconnected, close, rest, hsupply⟩ := h
  obtain ⟨s₁, hopen, -, hsupply₁⟩ :=
    openDynamicQueue_answered (ascii "SYSTEM.DEFAULT.MODEL.QUEUE") mqooInputExclusive
      (ascii "EXPORTER.*") hsupply sent.replyQueue_ok sent.replyQueue_named
  obtain ⟨s₂, hqueue, -, hsupply₂⟩ :=
    openQueue_answered (ascii "SYSTEM.ADMIN.COMMAND.QUEUE") mqooOutput hsupply₁
      sent.commandQueue_ok
  unfold sendPcfCommand closeQueue mqput mqclose
  rw [client_bind, if_neg (not_not.mpr hconnected),
    Effect.bind_of_ok (Effect.tryCatch_of_ok (Effect.map_of_ok some hopen))]
  dsimp only
  rw [if_neg (not_or.mpr ⟨sent.replyQueue_named, sent.replyQueue_dynamic⟩),
    Effect.bind_of_ok (Effect.tryCatch_of_ok (Effect.map_of_ok some hqueue))]
  dsimp only
  rw [Effect.bind_of_ok (mqi_call_cons hsupply₂), Effect.when_pos sent.commandQueue.handle.2,
    bind_assoc, Effect.bind_of_ok (mqi_call_cons rfl), pure_bind,
    if_neg (show ¬ (id sent.put).cc = .failed from sent.put_ok)]
  generalize hs : (s₂.answered _ _).answered _ _ = s'
  have hsupply' : s'.mqi.supply = (replies.init ++ [replies.last]) ++ close :: rest := by
    rw [← hs]
    rfl
  obtain ⟨s₃, hread, -, hsupply₃⟩ :=
    readResponses_stream sent.replyQueue.handle.1 replies 1000 [] hsupply'
  obtain ⟨r, supply, hlast⟩ : ∃ r supply, s₃.mqi.supply = r :: supply := by
    rw [hsupply₃]
    exact List.exists_cons_of_ne_nil (List.append_ne_nil_of_right_ne_nil _ (by simp))
  rw [Effect.bind_of_ok hread, Effect.bind_of_ok (mqi_call_cons hlast)]
  simp

/-- What is asked of a command: every reply is returned, and `discover_queues` goes
through every reply. -/
def Complete (s : Session) (replies : ReplyStream) : Prop :=
  (∀ cmd, (sendPcfCommand cmd s).1 = .ok replies.messages) ∧
    ∀ pattern, (discoverQueues pattern s).1 = replies.messages.foldlM discoverIn []

/-- Nothing is returned of replies that go beyond a thousand but their beginning. -/
theorem Complete.length_le {s : Session} {sent : Sent} {replies : ReplyStream}
    (hcomplete : Complete s replies) (h : Answered s sent replies) :
    replies.messages.length ≤ 1000 := by
  have heq := (sendPcfCommand_take h []).symm.trans (hcomplete.1 [])
  have hlength := congrArg List.length (Outcome.ok.inj heq)
  rw [List.length_take] at hlength
  omega

/-- Every reply is returned if and only if there are at most a thousand. -/
theorem repliesComplete_iff {s : Session} {sent : Sent} {replies : ReplyStream}
    (h : Answered s sent replies) : Complete s replies ↔ replies.messages.length ≤ 1000 := by
  constructor
  · intro hcomplete
    exact hcomplete.length_le h
  · intro hlength
    have hsend (cmd : Bytes) : (sendPcfCommand cmd s).1 = .ok replies.messages := by
      rw [sendPcfCommand_take h, List.take_of_length_le hlength]
    refine ⟨hsend, ?_⟩
    intro pattern
    unfold discoverQueues
    rw [Effect.bind_of_ok (Prod.ext (hsend _) rfl)]
    rfl

/-! ## More than a thousand replies -/

/-- A reply that is a header with a `Control` field. -/
def commandReply (control : Int32) : Reply :=
  { cc := .ok
    message := PCFHeader.encode
      { type := 2, strucLength := 36, version := 1, command := 13, msgSeqNumber := 1, control
        compCode := 0, reason := 0, parameterCount := 0 } }

theorem readable_commandReply (control : Int32) : Readable (commandReply control) := by
  refine ⟨by simp [commandReply], ?_⟩
  simp [commandReply]

/-- The reply queue is opened under a name of its own, and the other calls succeed. -/
def plainlySent : Sent where
  replyQueue := { cc := .ok, objectName := ascii "EXPORTER.5" }
  commandQueue := { cc := .ok }
  put := { cc := .ok }
  close := { cc := .ok }
  replyQueue_ok := by simp
  replyQueue_named := by decide
  replyQueue_dynamic := by decide
  commandQueue_ok := by simp
  put_ok := by simp

/-- A last reply behind `n` others. -/
def repliesBehind (n : Nat) : ReplyStream where
  init := List.replicate n (commandReply 0)
  last := commandReply 1
  readable := by
    intro r hr
    simp only [List.mem_append, List.mem_replicate, List.mem_singleton] at hr
    rcases hr with ⟨-, rfl⟩ | rfl
    · exact readable_commandReply 0
    · exact readable_commandReply 1
  carries_last := by decide
  not_carries_last := by
    intro r hr
    rw [(List.mem_replicate.mp hr).2]
    decide

theorem length_messages_repliesBehind (n : Nat) : (repliesBehind n).messages.length = n + 1 := by
  simp [ReplyStream.messages, repliesBehind]

/-- A session with these answers. -/
def sessionBehind (n : Nat) : Session where
  mqi := { supply := plainlySent.answers ++
    (((repliesBehind n).init ++ [(repliesBehind n).last]) ++ [{ cc := .ok }]) }
  client := { connected := true }

theorem answered_sessionBehind (n : Nat) :
    Answered (sessionBehind n) plainlySent (repliesBehind n) where
  connected := rfl
  supply := ⟨{ cc := .ok }, [], rfl⟩

theorem repliesComplete_iff_single :
    Answered (sessionBehind 0) plainlySent (repliesBehind 0) ∧
      (Complete (sessionBehind 0) (repliesBehind 0) ↔
        (repliesBehind 0).messages.length ≤ 1000) :=
  ⟨answered_sessionBehind 0, repliesComplete_iff (answered_sessionBehind 0)⟩

/-- Of 1001 replies the last is lost. -/
theorem not_complete :
    ¬ ∀ (s : Session) (sent : Sent) (replies : ReplyStream),
      Answered s sent replies → Complete s replies := by
  intro h
  have hcomplete := h _ _ _ (answered_sessionBehind 1000)
  have hlength := hcomplete.length_le (answered_sessionBehind 1000)
  rw [length_messages_repliesBehind] at hlength
  omega

end IbmmqExporter.Mq
