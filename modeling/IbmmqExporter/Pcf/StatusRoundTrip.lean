/-
  Pcf/StatusRoundTrip.lean --- status records, and the responses that carry them.

  A record is encoded as one structure for each of its fields, a pair of indicators as
  one list.  The structures of a response may stand in any order, with structures of
  other types or ids anywhere between them.

  WHAT THE FILE PROVES.  `parse_channel_status_response` and
  `parse_queue_online_status_response` give back the records of a list of responses
  (`statusRecords_roundTrip`).  A parser that has a case for each field, and for nothing
  else, finds a record if the writes of its cases commute (`Decodes.parse_replies`).
-/
import IbmmqExporter.Pcf.StatusReplies
import IbmmqExporter.Pcf.Structures
import Mathlib.Data.List.Pairwise
import Mathlib.Logic.Function.Conjugate

set_option autoImplicit false

namespace IbmmqExporter.Pcf

open Foundation

/-! ## Fields -/

/-- A field of a record, or two of them, with the id of its structure. -/
inductive StatusField where
  | string (id : Int32) (text : Bytes)
  | integer (id value : Int32)
  | integer64 (id : Int32) (value : Int64)
  | integerPair (id short long : Int32)
  deriving DecidableEq

namespace StatusField

/-- The type and the id of the field's structure. -/
def key : StatusField → Int32 × Int32
  | string id _ => (mqcftString, id)
  | integer id _ => (mqcftInteger, id)
  | integer64 id _ => (mqcftInteger64, id)
  | integerPair id _ _ => (mqcftIntegerList, id)

/-- The structure encodes the field.  A text may be filled up with blanks and NULs, and
the structure up to a multiple of four bytes with anything. -/
def EncodedBy : StatusField → PcfStructure → Prop
  | string id text, s => ∃ ccsid pad fill, IsPadding pad ∧
      ((text ++ pad).length + fill.length) % 4 = 0 ∧ s = .string id ccsid (text ++ pad) fill
  | integer id value, s => s = .integer id value
  | integer64 id value, s => s = .integer64 id value
  | integerPair id short long, s => s = .integerList id [short, long]

/-- The type and the id as the words that a parser compares. -/
def words (f : StatusField) : UInt32 × UInt32 := (f.key.1.toUInt32, f.key.2.toUInt32)

/-- A text does not end in a blank or in a NUL. -/
def Clean : StatusField → Prop
  | string _ text => EndsClean text
  | _ => True

instance (f : StatusField) : Decidable f.Clean :=
  match f with
  | string _ text => inferInstanceAs (Decidable (EndsClean text))
  | integer _ _ => .isTrue trivial
  | integer64 _ _ => .isTrue trivial
  | integerPair _ _ _ => .isTrue trivial

/-- The field's structure with NULs behind the text. -/
def encode : StatusField → PcfStructure
  | string id text => .string id 0 text (filling text.length)
  | integer id value => .integer id value
  | integer64 id value => .integer64 id value
  | integerPair id short long => .integerList id [short, long]

theorem encodedBy_encode (f : StatusField) : f.EncodedBy f.encode := by
  cases f with
  | string id text =>
      refine ⟨0, [], filling text.length, by simp [IsPadding], ?_, ?_⟩
      · rw [List.append_nil, filling, List.length_replicate]
        omega
      · rw [List.append_nil]
        rfl
  | integer id value => rfl
  | integer64 id value => rfl
  | integerPair id short long => rfl

end StatusField

/-- The text or the list that a structure states lies inside of it. -/
structure PcfStructure.WellFormed (s : PcfStructure) : Prop where
  string : s.type = mqcftString → 8 ≤ s.body.length ∧
    8 + (uint32At s.body 4).toNat ≤ s.body.length
  integerList : s.type = mqcftIntegerList → 4 ≤ s.body.length ∧
    4 + 4 * (uint32At s.body 0).toNat ≤ s.body.length

/-- A structure of a status response. -/
inductive StatusItem where
  | field (f : StatusField) (s : PcfStructure) (h : f.EncodedBy s)
  | other (s : PcfStructure) (h : s.WellFormed)

/-- The structure of the item. -/
def StatusItem.structure : StatusItem → PcfStructure
  | .field _ s _ => s
  | .other s _ => s

/-- The field, if the item is one. -/
def StatusItem.field? : StatusItem → Option StatusField
  | .field f _ _ => some f
  | .other _ _ => none

/-- How records are encoded: as which fields, and which records are reported. -/
structure StatusFormat (α : Type) where
  fields : α → List StatusField
  Named : α → Prop

/-- A successful response with the fields of a record in any order, and structures that
are none of them. -/
structure StatusReply {α : Type} (format : StatusFormat α) where
  record : α
  named : format.Named record
  clean : ∀ f ∈ format.fields record, f.Clean
  hdr : PCFHeader
  successful : hdr.compCode = 0
  items : List StatusItem
  complete : (items.filterMap StatusItem.field?).Perm (format.fields record)
  foreign : ∀ item ∈ items, item.field? = none →
    (item.structure.type, item.structure.id) ∉ (format.fields record).map StatusField.key
  fits : (encodeResponse hdr (items.map StatusItem.structure)).length < 2 ^ 31

/-- The bytes of the response. -/
def StatusReply.encode {α : Type} {format : StatusFormat α} (reply : StatusReply format) : Bytes :=
  encodeResponse reply.hdr (reply.items.map StatusItem.structure)

/-! ## Parsers -/

section Parsers

variable {α : Type} (parser : StatusParser α)

/-- What becomes of a record when a field is visited. -/
def StatusParser.take (a : α) : StatusField → α
  | .string id text => parser.strings.assign id.toUInt32 text a
  | .integer id value => parser.integers.assign id.toUInt32 value a
  | .integer64 id value => parser.integers64.assign id.toUInt32 value a
  | .integerPair id short long => parser.integerLists.assign id.toUInt32 [short, long] a

/-- What becomes of a record when an item is visited. -/
def StatusParser.takeItem (a : α) : StatusItem → α
  | .field f _ _ => parser.take a f
  | .other _ _ => a

theorem StatusParser.foldl_takeItem (items : List StatusItem) (a : α) :
    items.foldl parser.takeItem a = (items.filterMap StatusItem.field?).foldl parser.take a := by
  induction items generalizing a with
  | nil => rfl
  | cons item items ih =>
      rw [List.foldl_cons, ih]
      cases item <;> rfl

/-- The types and ids for which there is a case. -/
def StatusParser.keys : List (UInt32 × UInt32) :=
  parser.strings.map (fun c => (4, c.1)) ++ parser.integers.map (fun c => (3, c.1)) ++
    parser.integers64.map (fun c => (23, c.1)) ++ parser.integerLists.map (fun c => (5, c.1))

theorem Cases.visit_of_ok {ν : Type} (cases : Cases ν α) {read : Bytes → UInt32 → Parse ν}
    {p : ResponseParam} {v : ν} (h : read p.pdata p.plen = .ok v) (a : α) :
    cases.visit read a p = .ok (cases.assign p.paramId v a) := by
  unfold Cases.visit
  split
  · next hempty =>
      rw [List.isEmpty_iff.mp hempty]
      rfl
  · rw [h]
    rfl

variable {p : ResponseParam}

/-- The visitor assigns a field. -/
theorem StatusParser.visit_field {f : StatusField} {s : PcfStructure} (h : f.EncodedBy s)
    (hclean : f.Clean) (c : Carries p s) (a : α) : parser.visit a p = .ok (parser.take a f) := by
  have hid := c.id_eq
  cases f with
  | string id text =>
      obtain ⟨ccsid, pad, fill, hpad, hfill, rfl⟩ := h
      have htype : p.paramType = mqcftString.toUInt32 := c.type_eq
      have hread := c.readPcfString_eq hfill
      rw [hclean.trimPadding_append hpad] at hread
      rw [StatusParser.visit, htype, if_pos (by decide), parser.strings.visit_of_ok hread, hid]
      rfl
  | integer id value =>
      obtain rfl := h
      have htype : p.paramType = mqcftInteger.toUInt32 := c.type_eq
      rw [StatusParser.visit, htype, if_neg (by decide), if_pos (by decide),
        parser.integers.visit_of_ok c.readPcfInt32_eq, hid]
      rfl
  | integer64 id value =>
      obtain rfl := h
      have htype : p.paramType = mqcftInteger64.toUInt32 := c.type_eq
      rw [StatusParser.visit, htype, if_neg (by decide), if_neg (by decide), if_pos (by decide),
        parser.integers64.visit_of_ok c.readPcfInt64_eq, hid]
      rfl
  | integerPair id short long =>
      obtain rfl := h
      have htype : p.paramType = mqcftIntegerList.toUInt32 := c.type_eq
      rw [StatusParser.visit, htype, if_neg (by decide), if_neg (by decide), if_neg (by decide),
        if_pos (by decide), parser.integerLists.visit_of_ok c.readPcfIntList_eq, hid]
      rfl

/-! ### Structures without a case -/

theorem Cases.visit_of_notMem {ν : Type} (cases : Cases ν α) {read : Bytes → UInt32 → Parse ν}
    (h : (read p.pdata p.plen).Returns) {type : UInt32} (htype : p.paramType = type)
    (hkey : (p.paramType, p.paramId) ∉ cases.map fun c => (type, c.1)) (a : α) :
    cases.visit read a p = .ok a := by
  obtain ⟨v, hv⟩ := h
  have hlookup : cases.lookup p.paramId = none := by
    rw [List.lookup_eq_none_iff]
    intro c hc
    have hne : p.paramId ≠ c.1 := by
      intro heq
      rw [htype, heq] at hkey
      exact hkey (List.mem_map_of_mem hc)
    simpa using hne
  rw [cases.visit_of_ok hv, Cases.assign, hlookup]

theorem Carries.uint32At_body {s : PcfStructure} (c : Carries p s) (off : Nat) :
    uint32At p.pdata (12 + off) = uint32At s.body off := by
  rw [← uint32At_drop, show p.pdata.drop 12 = s.body ++ [] from c.words.body_at, List.append_nil]

theorem Carries.readPcfString_returns {s : PcfStructure} (c : Carries p s) (h : s.WellFormed)
    (htype : s.type = mqcftString) : (readPcfString p.pdata p.plen).Returns := by
  obtain ⟨-, hfits⟩ := h.string htype
  have hshort := c.short
  rw [← c.plen_eq, c.plen_body] at hshort
  have hinside : ¬ StringWraps p := by
    rintro ⟨-, hwrap⟩
    have hstated : statedStrLen p = (uint32At s.body 4).toNat := by
      rw [statedStrLen, ← c.uint32At_body]
    omega
  obtain ⟨text, htext, -⟩ := pcfStringBytes_inside hinside
  rw [readPcfString, htext]
  exact Outcome.returns_ok _

theorem Carries.readPcfIntList_returns {s : PcfStructure} (c : Carries p s) (h : s.WellFormed)
    (htype : s.type = mqcftIntegerList) : (readPcfIntList p.pdata p.plen).Returns := by
  obtain ⟨-, hfits⟩ := h.integerList htype
  have hshort := c.short
  rw [← c.plen_eq, c.plen_body] at hshort
  have hinside : ¬ ListWraps p := by
    rintro ⟨-, hwrap, -⟩
    have hstated : statedCount p = (uint32At s.body 0).toNat := by
      rw [statedCount, ← c.uint32At_body]
    omega
  obtain ⟨values, hvalues, -⟩ := readPcfIntList_inside hinside
  exact ⟨values, hvalues⟩

/-- The visitor leaves the record alone. -/
theorem StatusParser.visit_other {s : PcfStructure} (h : s.WellFormed) (c : Carries p s)
    (hkey : (s.type.toUInt32, s.id.toUInt32) ∉ parser.keys) (a : α) :
    parser.visit a p = .ok a := by
  rw [← c.type_eq, ← c.id_eq] at hkey
  simp only [StatusParser.keys, List.mem_append, not_or] at hkey
  obtain ⟨⟨⟨hstrings, hintegers⟩, hintegers64⟩, hlists⟩ := hkey
  unfold StatusParser.visit
  split
  · next htype =>
      have hs : s.type = mqcftString := toUInt32_inj.mp (c.type_eq.symm.trans htype)
      exact parser.strings.visit_of_notMem (c.readPcfString_returns h hs) htype hstrings a
  · split
    · next htype =>
        exact parser.integers.visit_of_notMem (readPcfInt32_returns p) htype hintegers a
    · split
      · next htype =>
          exact parser.integers64.visit_of_notMem (readPcfInt64_returns p) htype hintegers64 a
      · split
        · next htype =>
            have hs : s.type = mqcftIntegerList := toUInt32_inj.mp (c.type_eq.symm.trans htype)
            exact parser.integerLists.visit_of_notMem (c.readPcfIntList_returns h hs) htype hlists a
        · rfl

end Parsers

/-! ## Round trips -/

/-- The parser decodes the format: it has a case for each field and for nothing else, the
fields together make the record, and no field is written by the case of another. -/
structure Decodes {α : Type} (parser : StatusParser α) (format : StatusFormat α) : Prop where
  keeps : ∀ a, format.Named a → parser.keeps a = true
  known : ∀ a, parser.keys = (format.fields a).map StatusField.words
  fills : ∀ a, (format.fields a).foldl parser.take parser.empty = a
  commutes : ∀ a, (format.fields a).Pairwise fun f g =>
    ∀ b, parser.take (parser.take b f) g = parser.take (parser.take b g) f

/-- The same, for the list of what the cases write. -/
theorem decodes_of_writes {α : Type} {parser : StatusParser α} {format : StatusFormat α}
    (writes : α → List (α → α)) (hkeeps : ∀ a, format.Named a → parser.keeps a = true)
    (hknown : ∀ a, parser.keys = (format.fields a).map StatusField.words)
    (htake : ∀ a, (format.fields a).map (fun f b => parser.take b f) = writes a)
    (hfills : ∀ a, (writes a).foldl (fun b write => write b) parser.empty = a)
    (hcommutes : ∀ a, (writes a).Pairwise Function.Commute) : Decodes parser format where
  keeps := hkeeps
  known := hknown
  fills a := by
    have h := hfills a
    rwa [← htake, List.foldl_map] at h
  commutes a := by
    have h := hcommutes a
    rw [← htake, List.pairwise_map] at h
    exact h.imp fun hfg b => (hfg b).symm

namespace Decodes

variable {α : Type} {parser : StatusParser α} {format : StatusFormat α}
  (h : Decodes parser format)
include h

/-- The order of the fields does not matter. -/
theorem foldl_perm {a : α} {fields : List StatusField} (hperm : fields.Perm (format.fields a)) :
    fields.foldl parser.take parser.empty = a := by
  have hcommutes : ∀ f ∈ format.fields a, ∀ g ∈ format.fields a, ∀ b,
      parser.take (parser.take b f) g = parser.take (parser.take b g) f := by
    intro f hf g hg
    have hsymm : Std.Symm fun f g => ∀ b,
        parser.take (parser.take b f) g = parser.take (parser.take b g) f :=
      ⟨fun _ _ heq b => (heq b).symm⟩
    exact (h.commutes a).forall_of_forall (fun _ _ _ => rfl) hf hg
  rw [← hperm.symm.foldl_eq' hcommutes, h.fills]

/-- What an item of a response does to the record. -/
theorem visit_item (reply : StatusReply format) {item : StatusItem} (hitem : item ∈ reply.items)
    {p : ResponseParam} (c : Carries p item.structure) (a : α) :
    parser.visit a p = .ok (parser.takeItem a item) := by
  cases item with
  | field f s hs =>
      have hf : f ∈ format.fields reply.record :=
        reply.complete.mem_iff.mp (List.mem_filterMap.mpr ⟨_, hitem, rfl⟩)
      exact parser.visit_field hs (reply.clean f hf) c a
  | other s hs =>
      refine parser.visit_other hs c (fun hkey => ?_) a
      rw [h.known reply.record] at hkey
      obtain ⟨f, hf, hkey⟩ := List.mem_map.mp hkey
      obtain ⟨htype, hid⟩ := Prod.mk.inj hkey
      refine reply.foreign _ hitem rfl (List.mem_map.mpr ⟨f, hf, ?_⟩)
      exact Prod.ext (toUInt32_inj.mp htype) (toUInt32_inj.mp hid)

/-- A response gives the record that it encodes. -/
theorem entries_encode (reply : StatusReply format) :
    parser.entries reply.encode = .ok [reply.record] := by
  have hvisit : (responseParams reply.encode).foldlM parser.visit parser.empty =
      .ok reply.record := by
    have hparams := List.forall₂_map_right_iff.mp
      (responseParams_response reply.successful reply.fits)
    rw [StatusReply.encode, foldlM_eq_ok hparams fun a p item c hitem =>
      h.visit_item reply hitem c a, parser.foldl_takeItem, h.foldl_perm reply.complete]
  have hlen : ¬ reply.encode.length < 36 := not_lt.mpr (response_accepted reply.successful).1
  rw [StatusParser.entries, if_neg hlen, parsePcfResponseParams_eq, hvisit, Outcome.ok_bind,
    if_pos (h.keeps _ reply.named)]
  rfl

/-- A list of responses gives the list of records. -/
theorem parse_replies (replies : List (StatusReply format)) :
    parser.parse (replies.map StatusReply.encode) = .ok (replies.map StatusReply.record) := by
  induction replies with
  | nil => rfl
  | cons reply replies ih =>
      rw [List.map_cons, StatusParser.parse_cons, h.entries_encode, ih]
      rfl

end Decodes

/-! ## Channels -/

/-- The fields of a channel status.  The comments at the record itself give other ids to
its dates and times, among them the one of the job name. -/
def channelStatusFormat : StatusFormat ChannelStatusDetails where
  fields ch :=
    [.string 3501 ch.channelName, .string 3506 ch.connectionName, .string 3507 ch.remoteQmgr,
     .string 3524 ch.lastMsgTime, .string 3525 ch.lastMsgDate, .string 3528 ch.startTime,
     .string 3529 ch.startDate, .string 3530 ch.jobName, .string 3544 ch.sslCipher,
     .integer 1527 ch.status, .integer 1511 ch.channelType, .integer 1534 ch.msgs,
     .integer 1537 ch.batches, .integer 1609 ch.substate, .integer 1523 ch.instanceType,
     .integer 1538 ch.buffersSent, .integer 1539 ch.buffersReceived,
     .integer 1585 ch.curSharingConvs, .integer 1618 ch.maxInstances,
     .integer 1619 ch.maxInstsPerClient,
     .integer64 1535 ch.bytesSent, .integer64 1536 ch.bytesReceived,
     .integerPair 1605 ch.nettimeShort ch.nettimeLong,
     .integerPair 1604 ch.xmitqTimeShort ch.xmitqTimeLong,
     .integerPair 1607 ch.batchSizeShort ch.batchSizeLong]
  Named ch := ch.channelName ≠ []

/-- What the cases write of a channel status. -/
def channelStatusWrites (ch : ChannelStatusDetails) :
    List (ChannelStatusDetails → ChannelStatusDetails) :=
  [fun b => { b with channelName := ch.channelName },
   fun b => { b with connectionName := ch.connectionName },
   fun b => { b with remoteQmgr := ch.remoteQmgr },
   fun b => { b with lastMsgTime := ch.lastMsgTime },
   fun b => { b with lastMsgDate := ch.lastMsgDate },
   fun b => { b with startTime := ch.startTime },
   fun b => { b with startDate := ch.startDate },
   fun b => { b with jobName := ch.jobName },
   fun b => { b with sslCipher := ch.sslCipher },
   fun b => { b with status := ch.status },
   fun b => { b with channelType := ch.channelType },
   fun b => { b with msgs := ch.msgs },
   fun b => { b with batches := ch.batches },
   fun b => { b with substate := ch.substate },
   fun b => { b with instanceType := ch.instanceType },
   fun b => { b with buffersSent := ch.buffersSent },
   fun b => { b with buffersReceived := ch.buffersReceived },
   fun b => { b with curSharingConvs := ch.curSharingConvs },
   fun b => { b with maxInstances := ch.maxInstances },
   fun b => { b with maxInstsPerClient := ch.maxInstsPerClient },
   fun b => { b with bytesSent := ch.bytesSent },
   fun b => { b with bytesReceived := ch.bytesReceived },
   fun b => { b with nettimeShort := ch.nettimeShort, nettimeLong := ch.nettimeLong },
   fun b => { b with xmitqTimeShort := ch.xmitqTimeShort, xmitqTimeLong := ch.xmitqTimeLong },
   fun b => { b with batchSizeShort := ch.batchSizeShort, batchSizeLong := ch.batchSizeLong }]

theorem channelStatus_known (ch : ChannelStatusDetails) :
    channelStatusParser.keys = (channelStatusFormat.fields ch).map StatusField.words := rfl

theorem channelStatus_take (ch : ChannelStatusDetails) :
    (channelStatusFormat.fields ch).map (fun f b => channelStatusParser.take b f) =
      channelStatusWrites ch := rfl

theorem channelStatus_fills (ch : ChannelStatusDetails) :
    (channelStatusWrites ch).foldl (fun b write => write b) channelStatusParser.empty = ch := rfl

/-- No case writes what another one does. -/
theorem channelStatus_commutes (ch : ChannelStatusDetails) :
    (channelStatusWrites ch).Pairwise Function.Commute := by
  simp only [channelStatusWrites, List.pairwise_cons, List.forall_mem_cons, List.not_mem_nil,
    List.Pairwise.nil, false_imp_iff, implies_true, and_true]
  and_intros <;> exact fun _ => rfl

theorem channelStatus_decodes : Decodes channelStatusParser channelStatusFormat :=
  decodes_of_writes channelStatusWrites (fun _ h => decide_eq_true (p := _ ≠ []) h)
    channelStatus_known channelStatus_take channelStatus_fills channelStatus_commutes

/-! ## Queues -/

/-- The fields of a queue status. -/
def queueOnlineStatusFormat : StatusFormat QueueOnlineStatus where
  fields qs :=
    [.string 2016 qs.queueName, .string 3128 qs.lastPutDate, .string 3129 qs.lastPutTime,
     .string 3130 qs.lastGetDate, .string 3131 qs.lastGetTime,
     .integer 1227 qs.oldestMsgAge, .integer 1027 qs.uncommittedMsgs,
     .integer 1437 qs.curQFileSize, .integer 1438 qs.curMaxFileSize,
     .integerPair 1226 qs.qtimeShort qs.qtimeLong]
  Named qs := qs.queueName ≠ []

/-- What the cases write of a queue status. -/
def queueOnlineStatusWrites (qs : QueueOnlineStatus) :
    List (QueueOnlineStatus → QueueOnlineStatus) :=
  [fun b => { b with queueName := qs.queueName },
   fun b => { b with lastPutDate := qs.lastPutDate },
   fun b => { b with lastPutTime := qs.lastPutTime },
   fun b => { b with lastGetDate := qs.lastGetDate },
   fun b => { b with lastGetTime := qs.lastGetTime },
   fun b => { b with oldestMsgAge := qs.oldestMsgAge },
   fun b => { b with uncommittedMsgs := qs.uncommittedMsgs },
   fun b => { b with curQFileSize := qs.curQFileSize },
   fun b => { b with curMaxFileSize := qs.curMaxFileSize },
   fun b => { b with qtimeShort := qs.qtimeShort, qtimeLong := qs.qtimeLong }]

theorem queueOnlineStatus_commutes (qs : QueueOnlineStatus) :
    (queueOnlineStatusWrites qs).Pairwise Function.Commute := by
  simp only [queueOnlineStatusWrites, List.pairwise_cons, List.forall_mem_cons, List.not_mem_nil,
    List.Pairwise.nil, false_imp_iff, implies_true, and_true]
  and_intros <;> exact fun _ => rfl

theorem queueOnlineStatus_decodes : Decodes queueOnlineStatusParser queueOnlineStatusFormat :=
  decodes_of_writes queueOnlineStatusWrites (fun _ h => decide_eq_true (p := _ ≠ []) h)
    (fun _ => rfl) (fun _ => rfl) (fun _ => rfl) queueOnlineStatus_commutes

/-! ## Both parsers -/

/-- A list of responses that encode channel statuses gives these in order, and one that
encodes queue statuses gives those. -/
theorem statusRecords_roundTrip (channels : List (StatusReply channelStatusFormat))
    (queues : List (StatusReply queueOnlineStatusFormat)) :
    parseChannelStatusResponse (channels.map StatusReply.encode) =
        .ok (channels.map StatusReply.record) ∧
      parseQueueOnlineStatusResponse (queues.map StatusReply.encode) =
        .ok (queues.map StatusReply.record) :=
  ⟨channelStatus_decodes.parse_replies channels, queueOnlineStatus_decodes.parse_replies queues⟩

/-- A channel status with its fields in reverse, behind a parameter without a case. -/
def reversedChannelReply : StatusReply channelStatusFormat where
  record := { channelName := [67, 49], status := 3, bytesSent := 1099511627776, nettimeLong := 7 }
  named := List.cons_ne_nil _ _
  clean := by decide +kernel
  hdr := responseHeader 42 26
  successful := rfl
  items :=
    .other (.integer 1103 1105) ⟨fun h => absurd h (by decide), fun h => absurd h (by decide)⟩ ::
      (channelStatusFormat.fields
        { channelName := [67, 49], status := 3, bytesSent := 1099511627776,
          nettimeLong := 7 }).reverse.map fun f => .field f f.encode f.encodedBy_encode
  complete := by decide +kernel
  foreign := by decide +kernel
  fits := by decide +kernel

/-- A queue status of the same kind. -/
def reversedReply : StatusReply queueOnlineStatusFormat where
  record := { queueName := [81, 49], oldestMsgAge := -1, qtimeLong := 7 }
  named := List.cons_ne_nil _ _
  clean := by decide +kernel
  hdr := responseHeader 41 11
  successful := rfl
  items :=
    .other (.integer 1103 1105) ⟨fun h => absurd h (by decide), fun h => absurd h (by decide)⟩ ::
      (queueOnlineStatusFormat.fields
        { queueName := [81, 49], oldestMsgAge := -1, qtimeLong := 7 }).reverse.map
        fun f => .field f f.encode f.encodedBy_encode
  complete := by decide +kernel
  foreign := by decide +kernel
  fits := by decide +kernel

theorem statusRecords_roundTrip_reversed :
    parseChannelStatusResponse [reversedChannelReply.encode] =
        .ok [{ channelName := [67, 49], status := 3, bytesSent := 1099511627776,
               nettimeLong := 7 }] ∧
      parseQueueOnlineStatusResponse [reversedReply.encode] =
        .ok [{ queueName := [81, 49], oldestMsgAge := -1, qtimeLong := 7 }] :=
  statusRecords_roundTrip [reversedChannelReply] [reversedReply]

end IbmmqExporter.Pcf
