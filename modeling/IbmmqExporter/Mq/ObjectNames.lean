/-
  Mq/ObjectNames.lean --- the names of queues and channels on their way to MQ.

  A name stands in a field of a fixed width and is filled up with blanks or NULs; a name
  of the full width has nothing behind it.  The client copies names with `strncpy` and
  keeps the last character of a field for a terminator that MQ does not ask for.

  WHAT THE FILE PROVES.  A name reaches MQ without its last character if it is as long as
  its field, and as it is otherwise; two queue names are opened as the same object if they
  agree in their first 47 characters (`unchanged_iff`).
-/
import IbmmqExporter.Configuration.Config
import IbmmqExporter.Mq.Client

set_option autoImplicit false

namespace IbmmqExporter.Mq

open Foundation Effect

/-! ## Names -/

/-- The characters of names: letters, digits, and `.`, `/`, `_` and `%`. -/
def isNameChar (b : UInt8) : Bool :=
  (65 ≤ b && b ≤ 90) || (97 ≤ b && b ≤ 122) || (48 ≤ b && b ≤ 57) ||
    (ascii "./_%").contains b

/-- A legal name of at most `n` characters. -/
structure LegalName (n : Nat) where
  chars : Bytes
  legal : ∀ b ∈ chars, isNameChar b = true
  nonempty : chars ≠ []
  fits : chars.length ≤ n

/-- The name that a field denotes: the characters up to the first NUL, without the blanks
at their end. -/
def denoted (field : Bytes) : Bytes := trimBlanks (untilNul field)

namespace LegalName

variable {n : Nat}

theorem chars_clean (name : LegalName n) : ∀ b ∈ name.chars, b ≠ nul ∧ b ≠ blank := by
  intro b hb
  have hlegal := name.legal b hb
  constructor
  · rintro rfl
    exact absurd hlegal (by decide)
  · rintro rfl
    exact absurd hlegal (by decide)

/-- The first characters of a name. -/
def front (name : LegalName n) (k : Nat) : Text where
  bytes := name.chars.take k
  noNul := fun b hb => (name.chars_clean b (List.mem_of_mem_take hb)).1
  noTrailingBlank := fun hlast =>
    (name.chars_clean blank (List.mem_of_mem_take (List.mem_of_getLast? hlast))).2 rfl

theorem front_of_le (name : LegalName n) {k : Nat} (h : name.chars.length ≤ k) :
    (name.front k).bytes = name.chars := List.take_of_length_le h

theorem front_eq_iff (name : LegalName n) (k : Nat) :
    (name.front k).bytes = name.chars ↔ name.chars.length ≤ k := by
  refine ⟨fun h => ?_, name.front_of_le⟩
  rw [← h]
  exact List.length_take_le k name.chars

end LegalName

/-! ## Fields -/

theorem isPadding_append {pad pad' : Bytes} (h : IsPadding pad) (h' : IsPadding pad') :
    IsPadding (pad ++ pad') := List.forall_mem_append.mpr ⟨h, h'⟩

theorem isPadding_take {pad : Bytes} (h : IsPadding pad) (k : Nat) : IsPadding (pad.take k) :=
  fun b hb => h b (List.mem_of_mem_take hb)

theorem isPadding_replicate (k : Nat) : IsPadding (List.replicate k nul) :=
  fun _ hb => Or.inl (List.eq_of_mem_replicate hb)

/-- `strncpy` leaves out what is behind the last but one character of the field. -/
theorem strncpy_padded {n : Nat} (name : LegalName n) (k : Nat) {pad : Bytes}
    (hpad : IsPadding pad) :
    ∃ pad', IsPadding pad' ∧ strncpy (k + 1) (name.chars ++ pad) = (name.front k).bytes ++ pad' := by
  have hcut : untilNul (name.chars ++ pad) = name.chars ++ untilNul pad := by
    unfold untilNul
    exact List.takeWhile_append_of_pos fun b hb => decide_eq_true (name.chars_clean b hb).1
  have hpad' : IsPadding (untilNul pad) := fun b hb => hpad b ((List.takeWhile_sublist _).subset hb)
  unfold strncpy
  rw [hcut, Nat.add_sub_cancel, List.take_append, List.append_assoc]
  exact ⟨_, isPadding_append (isPadding_take hpad' _) (isPadding_replicate _), rfl⟩

/-- What is read back of a field is the name but for what did not fit. -/
theorem denoted_strncpy {n : Nat} (name : LegalName n) (k : Nat) {pad : Bytes}
    (hpad : IsPadding pad) :
    denoted (strncpy (k + 1) (name.chars ++ pad)) = (name.front k).bytes := by
  obtain ⟨pad', hpad', heq⟩ := strncpy_padded name k hpad
  rw [heq]
  exact (name.front k).trimBlanks_untilNul_append hpad'

theorem denoted_strncpy_self {n : Nat} (name : LegalName n) (k : Nat) :
    denoted (strncpy (k + 1) name.chars) = (name.front k).bytes := by
  have h := denoted_strncpy name k (show IsPadding [] from nofun)
  rwa [List.append_nil] at h

/-- Trimming the blanks of a field leaves the name and padding. -/
theorem trimBlanks_padded {n : Nat} (name : LegalName n) {pad : Bytes} (hpad : IsPadding pad) :
    ∃ pad', IsPadding pad' ∧ trimBlanks (name.chars ++ pad) = name.chars ++ pad' := by
  induction pad using List.reverseRecOn with
  | nil =>
      have hself := (name.front n).trimBlanks_eq
      rw [name.front_of_le name.fits] at hself
      exact ⟨[], nofun, by rw [List.append_nil, hself]⟩
  | append_singleton pad b ih =>
      obtain ⟨hfront, hlast⟩ := List.forall_mem_append.mp hpad
      rw [← List.append_assoc]
      by_cases hb : b = blank
      · rw [trimBlanks, List.rdropWhile_concat, if_pos (decide_eq_true hb)]
        exact ih hfront
      · rw [trimBlanks, List.rdropWhile_concat, if_neg (by simpa using hb), List.append_assoc]
        exact ⟨_, hpad, rfl⟩

/-! ## Calls of a method -/

section Calls

variable {α : Type}

/-- A method makes a call. -/
def Makes (c : Method α) (event : MqiEvent) : Prop :=
  ∃ s events, (c s).2.log = s.log ++ events ∧ event ∈ events

/-- A method whose only call is an `MQOPEN` makes it with its object descriptor. -/
theorem makes_mqopen_iff {od od' : MQOD} {options options' : Int32} {hobj : MQHOBJ}
    {k : Reply → Method α} (hk : ∀ r, Preserves Session.log (k r)) :
    Makes (mqi (mqopen od options) >>= k) (.opened od' options' hobj) ↔
      od' = od ∧ options' = options ∧ hobj ≠ 0 := by
  constructor
  · rintro ⟨s, events, hlog, hmem⟩
    unfold mqopen at hlog
    rcases hs : s.mqi.supply with _ | ⟨r, supply⟩
    · rw [bind_apply, mqi_call_nil hs] at hlog
      rw [List.self_eq_append_right.mp hlog] at hmem
      exact absurd hmem List.not_mem_nil
    · rw [bind_of_ok (mqi_call_cons hs), hk, Session.answered_log] at hlog
      rw [← List.append_cancel_left hlog, List.mem_singleton] at hmem
      split at hmem
      · cases hmem
      · cases hmem
        exact ⟨rfl, rfl, r.handle.2⟩
  · rintro ⟨rfl, rfl, hne⟩
    obtain ⟨s, hs⟩ : ∃ s : Session, s.mqi.supply = [{ cc := .ok, handle := ⟨hobj, hne⟩ }] :=
      ⟨{ mqi := { supply := _ } }, rfl⟩
    refine ⟨s, _, ?_, List.mem_singleton_self _⟩
    unfold mqopen
    rw [bind_of_ok (mqi_call_cons hs), hk, Session.answered_log]
    rfl

theorem makes_openQueue_iff {queueName : Bytes} {options options' : Int32} {od : MQOD}
    {hobj : MQHOBJ} :
    Makes (openQueue queueName options) (.opened od options' hobj) ↔
      od = { objectName := strncpy 48 queueName, dynamicQName := List.replicate 48 blank } ∧
        options' = options ∧ hobj ≠ 0 := by
  unfold openQueue
  exact makes_mqopen_iff fun r => preserves_ite (preserves_raise _) (preserves_pure _)

theorem makes_openDynamicQueue_iff {queueName dynamicQName : Bytes} {options options' : Int32}
    {od : MQOD} {hobj : MQHOBJ} :
    Makes (openDynamicQueue queueName options dynamicQName) (.opened od options' hobj) ↔
      od = { objectName := strncpy 48 queueName, dynamicQName := strncpy 48 dynamicQName } ∧
        options' = options ∧ hobj ≠ 0 := by
  unfold openDynamicQueue
  exact makes_mqopen_iff fun r => preserves_ite (preserves_raise _) (preserves_pure _)

end Calls

/-! ## Where a name goes -/

/-- `open_queue`, in one of its two forms, opens an object when it is given a name. -/
def OpensObject (queueName object : Bytes) : Prop :=
  ∃ od options hobj, denoted od.objectName = object ∧
    (Makes (openQueue queueName options) (.opened od options hobj) ∨
      ∃ dynamicQName,
        Makes (openDynamicQueue queueName options dynamicQName) (.opened od options hobj))

/-- The name goes into the field as `strncpy` copies it. -/
theorem opensObject_iff (queueName object : Bytes) :
    OpensObject queueName object ↔ object = denoted (strncpy 48 queueName) := by
  constructor
  · rintro ⟨od, options, hobj, rfl, hmakes | ⟨dynamicQName, hmakes⟩⟩
    · rw [(makes_openQueue_iff.mp hmakes).1]
    · rw [(makes_openDynamicQueue_iff.mp hmakes).1]
  · rintro rfl
    exact ⟨_, mqooInquire, 1, rfl, Or.inl (makes_openQueue_iff.mpr ⟨rfl, rfl, by decide⟩)⟩

/-- A name opens the object that is named by its first 47 characters. -/
theorem opensObject_name_iff (name : LegalName 48) (object : Bytes) :
    OpensObject name.chars object ↔ object = (name.front 47).bytes := by
  rw [opensObject_iff, denoted_strncpy_self name 47]

/-- `MQPUT` of a request with another `ReplyToQ`. -/
def MqiEvent.putsElsewhere (replyToQ : Bytes) : MqiEvent → Bool
  | .put _ replyToQ' _ => decide (replyToQ' ≠ replyToQ)
  | _ => false

/-- The requests with another `ReplyToQ`. -/
def putsElsewhere (replyToQ : Bytes) (s : Session) : List MqiEvent :=
  s.log.filter (MqiEvent.putsElsewhere replyToQ)

section Puts

variable {α : Type} {replyToQ : Bytes}

/-- A call whose event is not among those that are looked at. -/
theorem preserves_filter {p : MqiEvent → Bool} {event : Reply → MqiEvent}
    {result : Reply → α} (h : ∀ r, p (event r) = false) :
    Preserves (fun s => s.log.filter p) (mqi (call event result)) := by
  intro s
  rcases hs : s.mqi.supply with _ | ⟨r, supply⟩
  · rw [mqi_call_nil hs]
  · rw [mqi_call_cons hs]
    dsimp only
    rw [Session.answered_log, List.filter_append, List.filter_singleton, h]
    exact List.append_nil _

theorem preserves_reply {event : Reply → MqiEvent} {result : Reply → α}
    (h : ∀ r, (event r).putsElsewhere replyToQ = false) :
    Preserves (putsElsewhere replyToQ) (mqi (call event result)) := preserves_filter h

theorem preserves_mqopen (od : MQOD) (options : Int32) :
    Preserves (putsElsewhere replyToQ) (mqi (mqopen od options)) := by
  refine preserves_reply fun r => ?_
  split
  · rfl
  · rfl

theorem preserves_mqget (hobj : MQHOBJ) (size : Nat) :
    Preserves (putsElsewhere replyToQ) (mqi (mqget hobj size)) := by
  refine preserves_reply fun r => ?_
  unfold getEvent
  split
  · rfl
  · rfl

theorem preserves_mqclose (hobj : MQHOBJ) (option : CloseOption) :
    Preserves (putsElsewhere replyToQ) (mqi (mqclose hobj option)) :=
  preserves_reply fun _ => rfl

/-- The requests of `send_pcf_command` name the reply queue as `strncpy` copies it. -/
theorem sendPcfCommand_puts (cmd : Bytes) {s : Session} {r : Reply} {supply : List Reply}
    (hs : s.mqi.supply = r :: supply) (hcc : r.cc ≠ .failed)
    (hnamed : trimBlanks r.objectName ≠ []) :
    putsElsewhere (strncpy 48 (trimBlanks r.objectName)) (sendPcfCommand cmd s).2 =
      putsElsewhere (strncpy 48 (trimBlanks r.objectName)) s := by
  generalize hreply : strncpy 48 (trimBlanks r.objectName) = replyToQ
  have hmqopen (od : MQOD) (options : Int32) :
      Preserves (putsElsewhere replyToQ) (mqi (mqopen od options)) := preserves_mqopen od options
  have hpurge (hobj : MQHOBJ) : Preserves (putsElsewhere replyToQ) (do
      let _ ← mqi (mqclose hobj .deletePurge)
      return ([] : List Bytes)) := (preserves_mqclose _ _).bind fun _ => preserves_pure []
  have hclose (hobj : MQHOBJ) : Preserves (putsElsewhere replyToQ) (closeQueue hobj) :=
    preserves_when ((preserves_mqclose _ _).bind fun _ => preserves_pure ())
  obtain ⟨s', hopen, -, -⟩ :=
    openDynamicQueue_answered (ascii "SYSTEM.DEFAULT.MODEL.QUEUE") mqooInputExclusive
      (ascii "EXPORTER.*") hs hcc hnamed
  have hopened : putsElsewhere replyToQ s' = putsElsewhere replyToQ s := by
    have h := preserves_openDynamicQueue_of hmqopen (ascii "SYSTEM.DEFAULT.MODEL.QUEUE")
      mqooInputExclusive (ascii "EXPORTER.*") s
    rwa [hopen] at h
  unfold sendPcfCommand
  rw [client_bind]
  by_cases hconnected : s.client.connected = true
  · rw [if_neg (not_not.mpr hconnected),
      bind_of_ok (tryCatch_of_ok (map_of_ok some hopen)), ← hopened]
    dsimp only
    refine preserves_ite (hpurge r.handle.1) ?_ s'
    have hqueue := preserves_openQueue_of hmqopen (ascii "SYSTEM.ADMIN.COMMAND.QUEUE")
      mqooOutput
    refine ((hqueue.map some).tryCatch fun _ => preserves_pure none).bind fun queue => ?_
    cases queue with
    | none => exact hpurge r.handle.1
    | some cmdHobj =>
        refine (preserves_reply fun _ => ?_).bind fun put => ?_
        · exact decide_eq_false (not_not.mpr hreply)
        · refine (hclose cmdHobj).bind fun _ => preserves_ite (hpurge r.handle.1) ?_
          refine (preserves_readResponses_of (preserves_mqget _ _) 1000 []).bind fun responses => ?_
          exact (preserves_mqclose _ _).bind fun _ => preserves_pure responses
  · rw [if_pos hconnected]
    rfl

end Puts

/-- The queue manager creates the reply queue under a name, and answers with it in
`ObjectName`. -/
structure CreatesReplyQueue (s : Session) (name : Bytes) (r : Reply) : Prop where
  supply : ∃ supply, s.mqi.supply = r :: supply
  created : r.cc ≠ .failed
  objectName : ∃ pad, IsPadding pad ∧ r.objectName = name ++ pad
  width : r.objectName.length = 48

/-- `send_pcf_command` asks for the replies in an object, when the reply queue has been
created under a name. -/
def AsksReplyTo (name object : Bytes) : Prop :=
  ∃ cmd s r events hobj replyToQ message, CreatesReplyQueue s name r ∧
    (sendPcfCommand cmd s).2.log = s.log ++ events ∧
    .put hobj replyToQ message ∈ events ∧ denoted replyToQ = object

theorem AsksReplyTo.eq_front {name : LegalName 48} {object : Bytes}
    (h : AsksReplyTo name.chars object) : object = (name.front 47).bytes := by
  obtain ⟨cmd, s, r, events, hobj, replyToQ, message, hcreates, hlog, hmem, rfl⟩ := h
  obtain ⟨supply, hs⟩ := hcreates.supply
  obtain ⟨pad, hpad, hname⟩ := hcreates.objectName
  obtain ⟨pad', hpad', htrimmed⟩ := trimBlanks_padded name hpad
  have hnamed : trimBlanks r.objectName ≠ [] := by
    rw [hname, htrimmed]
    exact List.append_ne_nil_of_left_ne_nil name.nonempty _
  have hputs := sendPcfCommand_puts cmd hs hcreates.created hnamed
  unfold putsElsewhere at hputs
  rw [hlog, List.filter_append, List.append_right_eq_self, List.filter_eq_nil_iff, hname,
    htrimmed] at hputs
  have hreply : replyToQ = strncpy 48 (name.chars ++ pad') := by
    by_contra hne
    exact hputs _ hmem (decide_eq_true hne)
  rw [hreply, denoted_strncpy name 47 hpad']

/-- The queue manager opens both queues and takes the request, which names the reply
queue. -/
theorem sendPcfCommand_asks (cmd : Bytes) {s : Session} {r : Reply}
    (hconnected : s.client.connected = true)
    (hs : s.mqi.supply = [r, { cc := .ok }, { cc := .ok }]) (hcc : r.cc ≠ .failed)
    (hnamed : trimBlanks r.objectName ≠ [])
    (hdynamic : trimBlanks r.objectName ≠ ascii "SYSTEM.DEFAULT.MODEL.QUEUE") :
    ∃ events hobj, (sendPcfCommand cmd s).2.log = s.log ++ events ∧
      .put hobj (strncpy 48 (trimBlanks r.objectName)) cmd ∈ events := by
  obtain ⟨opened, hopen⟩ := openDynamicQueue_records (ascii "SYSTEM.DEFAULT.MODEL.QUEUE")
    mqooInputExclusive (ascii "EXPORTER.*") hs hcc hnamed
  obtain ⟨opened', hqueue⟩ := openQueue_records (ascii "SYSTEM.ADMIN.COMMAND.QUEUE") mqooOutput
    (s := s.answered opened [{ cc := .ok }, { cc := .ok }]) rfl nofun
  refine ⟨[opened, opened', .put firstHandle.1 (strncpy 48 (trimBlanks r.objectName)) cmd],
    firstHandle.1, ?_, by simp⟩
  unfold sendPcfCommand mqput closeQueue
  rw [client_bind, if_neg (not_not.mpr hconnected),
    bind_of_ok (tryCatch_of_ok (map_of_ok some hopen))]
  dsimp only
  rw [if_neg (not_or.mpr ⟨hnamed, hdynamic⟩), bind_of_ok (tryCatch_of_ok (map_of_ok some hqueue))]
  dsimp only
  rw [bind_of_ok (mqi_call_cons rfl), when_pos firstHandle.2]
  -- the answer to the call behind it is still to come
  unfold mqclose
  rw [bind_assoc, bind_apply, mqi_call_nil rfl]
  simp

/-- A request goes out that asks for the replies in the object with the first 47
characters of the name. -/
theorem asksReplyTo_front (name : LegalName 48)
    (hdynamic : name.chars ≠ ascii "SYSTEM.DEFAULT.MODEL.QUEUE") :
    AsksReplyTo name.chars (name.front 47).bytes := by
  have htrimmed :
      trimBlanks (name.chars ++ List.replicate (48 - name.chars.length) blank) = name.chars := by
    rw [trimBlanks, rdropWhile_append_of_all fun b hb =>
      decide_eq_true (List.eq_of_mem_replicate hb), ← name.front_of_le name.fits]
    exact (name.front 48).trimBlanks_eq
  have hwidth : (name.chars ++ List.replicate (48 - name.chars.length) blank).length = 48 := by
    rw [List.length_append, List.length_replicate]
    exact Nat.add_sub_of_le name.fits
  have hok : CompCode.ok ≠ .failed := by decide
  obtain ⟨s, r, hs, hconnected, hcc, hname⟩ : ∃ (s : Session) (r : Reply),
      s.mqi.supply = [r, { cc := .ok }, { cc := .ok }] ∧ s.client.connected = true ∧
        r.cc ≠ .failed ∧
        r.objectName = name.chars ++ List.replicate (48 - name.chars.length) blank :=
    ⟨{ mqi := { supply := _ }, client := { connected := true } },
      { cc := .ok, objectName := _ }, rfl, rfl, hok, rfl⟩
  rw [← hname] at htrimmed hwidth
  obtain ⟨events, hobj, hlog, hmem⟩ := sendPcfCommand_asks [] hconnected hs hcc
    (htrimmed ▸ name.nonempty) (htrimmed ▸ hdynamic)
  rw [htrimmed] at hmem
  refine ⟨[], s, r, events, hobj, _, [], ⟨⟨_, hs⟩, hcc, ⟨_, ?_, hname⟩, hwidth⟩, hlog, hmem, ?_⟩
  · exact fun _ hb => Or.inr (List.eq_of_mem_replicate hb)
  · exact denoted_strncpy_self name 47

/-- `MQCONNX` with another channel definition. -/
def MqiEvent.connectsElsewhere (cd : Option MQCD) : MqiEvent → Bool
  | .connx cd' _ => decide (cd' ≠ cd)
  | _ => false

/-- The calls of `connect` pass the channel definition of the configuration. -/
theorem connect_passes (s : Session) :
    (connect s).2.log.filter (MqiEvent.connectsElsewhere (clientConn s.client.config)) =
      s.log.filter (MqiEvent.connectsElsewhere (clientConn s.client.config)) := by
  generalize hcd : clientConn s.client.config = cd
  have hupdate (f : MQClient → MQClient) :
      Preserves (fun s => s.log.filter (MqiEvent.connectsElsewhere cd)) (update f) := fun _ => rfl
  have hplatform :
      Preserves (fun s => s.log.filter (MqiEvent.connectsElsewhere cd)) detectPlatform := by
    refine (preserves_filter fun r => ?_).bind fun r => preserves_ite (hupdate _) ?_
    · split
      · rfl
      · rfl
    · refine (preserves_filter fun _ => rfl).bind fun inq => ?_
      exact (preserves_filter fun _ => rfl).bind fun _ => preserves_ite (hupdate _) (hupdate _)
  unfold connect
  rw [client_bind]
  split
  · rfl
  · rw [client_bind, hcd]
    refine Preserves.bind (preserves_filter fun r => ?_) (fun r => ?_) s
    · exact decide_eq_false (not_not.mpr rfl)
    · exact preserves_ite (preserves_raise _) ((hupdate _).bind fun _ => hplatform)

theorem channelName_of_clientConn {config : Configuration.MQConfig} {cd : MQCD}
    (h : clientConn config = some cd) : cd.channelName = strncpy 20 config.channel := by
  unfold clientConn at h
  split at h
  · dsimp only at h
    split at h
    · obtain rfl := Option.some.inj h
      rfl
    · obtain rfl := Option.some.inj h
      rfl
  · cases h

/-- `connect` asks for a channel, when the configuration of the client names one. -/
def ConnectsThrough (channel object : Bytes) : Prop :=
  ∃ s events cd success, s.client.config.channel = channel ∧
    (connect s).2.log = s.log ++ events ∧ .connx (some cd) success ∈ events ∧
    denoted cd.channelName = object

theorem connectsThrough_iff (channel object : Bytes) :
    ConnectsThrough channel object ↔ object = denoted (strncpy 20 channel) := by
  constructor
  · rintro ⟨s, events, cd, success, rfl, hlog, hmem, rfl⟩
    have hpasses := connect_passes s
    rw [hlog, List.filter_append, List.append_right_eq_self, List.filter_eq_nil_iff] at hpasses
    have hconn : clientConn s.client.config = some cd := by
      by_contra hne
      exact hpasses _ hmem (decide_eq_true (Ne.symm hne))
    rw [channelName_of_clientConn hconn]
  · rintro rfl
    -- the queue manager refuses the connection
    obtain ⟨config, rfl, cd, hconn⟩ : ∃ config : Configuration.MQConfig,
        config.channel = channel ∧ ∃ cd, clientConn config = some cd :=
      ⟨{ channel, host := ascii "h" }, rfl, _, rfl⟩
    refine ⟨{ mqi := { supply := [{ cc := .failed }] }, client := { config } },
      [.connx (some cd) false], cd, false, rfl, ?_, List.mem_singleton_self _, ?_⟩
    · unfold connect
      rw [client_bind, ← hconn]
      rfl
    · rw [channelName_of_clientConn hconn]

/-- A channel name asks for the channel that is named by its first 19 characters. -/
theorem connectsThrough_name_iff (channel : LegalName 20) (object : Bytes) :
    ConnectsThrough channel.chars object ↔ object = (channel.front 19).bytes := by
  rw [connectsThrough_iff, denoted_strncpy_self channel 19]

/-! ## Names that reach MQ unchanged -/

/-- What is asked of a queue name and a channel name: they reach MQ as they are, and
another queue name is not opened as the same object. -/
structure Unchanged (name other : LegalName 48) (channel : LegalName 20) : Prop where
  objectName : ∀ object, OpensObject name.chars object → object = name.chars
  replyToQ : ∀ object, AsksReplyTo name.chars object → object = name.chars
  channelName : ∀ object, ConnectsThrough channel.chars object → object = channel.chars
  distinct : name.chars ≠ other.chars →
    ∀ object, OpensObject name.chars object → ¬ OpensObject other.chars object

/-- Names are unchanged if and only if they are shorter than their fields, and the other
queue name differs in the first 47 characters. -/
theorem unchanged_iff (name other : LegalName 48) (channel : LegalName 20) :
    Unchanged name other channel ↔
      name.chars.length ≤ 47 ∧ channel.chars.length ≤ 19 ∧
        (name.chars ≠ other.chars → name.chars.take 47 ≠ other.chars.take 47) := by
  constructor
  · rintro ⟨hobject, -, hchannel, hdistinct⟩
    have hopens := (opensObject_name_iff name _).mpr rfl
    refine ⟨?_, ?_, fun hne heq => ?_⟩
    · exact (name.front_eq_iff 47).mp (hobject _ hopens)
    · exact (channel.front_eq_iff 19).mp
        (hchannel _ ((connectsThrough_name_iff channel _).mpr rfl))
    · exact hdistinct hne _ hopens ((opensObject_name_iff other _).mpr heq)
  · rintro ⟨hname, hchannel, hdistinct⟩
    have hfront := name.front_of_le hname
    refine ⟨fun object h => ?_, fun object h => ?_, fun object h => ?_, fun hne object h h' => ?_⟩
    · exact ((opensObject_name_iff name object).mp h).trans hfront
    · exact h.eq_front.trans hfront
    · exact ((connectsThrough_name_iff channel object).mp h).trans (channel.front_of_le hchannel)
    · refine hdistinct hne ?_
      exact ((opensObject_name_iff name object).mp h).symm.trans
        ((opensObject_name_iff other object).mp h')

/-- A name of the letter `A`, as long as its field. -/
def longName (n : Nat) (hpos : 0 < n) : LegalName n where
  chars := List.replicate n 65
  legal := fun b hb => by
    rw [List.eq_of_mem_replicate hb]
    decide
  nonempty := fun hnil => Nat.ne_of_gt hpos ((List.replicate_eq_nil_iff 65).mp hnil)
  fits := Nat.le_of_eq (List.length_replicate ..)

/-- A name of 48 letters is opened as the object with the first 47 of them. -/
theorem not_unchanged_longName :
    ¬ ∀ (name other : LegalName 48) (channel : LegalName 20), Unchanged name other channel := by
  intro h
  let name := longName 48 (by decide)
  have hopens := (opensObject_name_iff name _).mpr rfl
  have hself := (h name name (longName 20 (by decide))).objectName _ hopens
  have hlong : name.chars.length ≤ 47 := (name.front_eq_iff 47).mp hself
  have hlength : name.chars.length = 48 := List.length_replicate ..
  omega

end IbmmqExporter.Mq
