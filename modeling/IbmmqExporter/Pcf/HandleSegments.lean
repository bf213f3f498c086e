/-
  Pcf/HandleSegments.lean --- the entries of a queue status response.

  A response is flat, or it is a sequence of groups: headers `MQCFGR` with the
  parameters of one handle behind each.  `parse_queue_status_response` keeps one record
  for the handle it is in, puts it away when the next group opens and once more behind
  the loop.

  WHAT THE FILE PROVES.  Each segment makes the handle that a response with its
  parameters alone makes, if it names a queue, and none otherwise
  (`handles_segmented`).
-/
import IbmmqExporter.Foundation.Fields
import IbmmqExporter.Pcf.QueueStatus
import IbmmqExporter.Pcf.Structures

set_option autoImplicit false

namespace IbmmqExporter.Pcf

open Foundation

/-! ## Segments -/

/-- A parameter of a queue status response. -/
inductive HandleParam where
  | integer (id value : Int32)
  /-- a text with the bytes that fill the structure up behind it -/
  | string (id ccsid : Int32) (text fill : Bytes)
  /-- a parameter of another type -/
  | other (s : PcfStructure)
      (h : s.type ≠ mqcftInteger ∧ s.type ≠ mqcftString ∧ s.type ≠ mqcftGroup)

/-- The structure of the parameter. -/
def HandleParam.structure : HandleParam → PcfStructure
  | .integer id value => .integer id value
  | .string id ccsid text fill => .string id ccsid text fill
  | .other s _ => s

/-- The queue name that the parameter gives. -/
def HandleParam.queueName : HandleParam → Option Bytes
  | .string id _ text _ => if id = 2016 then some (trimPadding text) else none
  | _ => none

/-- The queue name that is decoded from parameters. -/
def decodedQueueName (params : List HandleParam) : Bytes :=
  lastOf HandleParam.queueName params []

/-- A structure of a response: the header of a group or a parameter. -/
inductive HandleItem where
  | group (id count : Int32)
  | param (p : HandleParam)

/-- The structure of the item. -/
def HandleItem.structure : HandleItem → PcfStructure
  | .group id count => .group id count
  | .param p => p.structure

/-- A group with the parameters that follow it. -/
structure Segment where
  groupId : Int32
  count : Int32
  params : List HandleParam

/-- The items of the segment. -/
def Segment.items (seg : Segment) : List HandleItem :=
  .group seg.groupId seg.count :: seg.params.map HandleItem.param

/-- A response: parameters without a group, or groups. -/
inductive HandleResponse where
  | flat (params : List HandleParam)
  | grouped (segs : List Segment)

namespace HandleResponse

/-- The items of the response. -/
def items : HandleResponse → List HandleItem
  | flat params => params.map HandleItem.param
  | grouped segs => segs.flatMap Segment.items

/-- The parameters of each segment. -/
def segments : HandleResponse → List (List HandleParam)
  | flat params => [params]
  | grouped segs => segs.map Segment.params

/-- The bytes of the response. -/
def encode (hdr : PCFHeader) (resp : HandleResponse) : Bytes :=
  encodeResponse hdr (resp.items.map HandleItem.structure)

end HandleResponse

/-- The function returns `handles` for parameters that stand alone: one handle, with the
queue name that is decoded from them, or none if that is empty. -/
structure Reports (hdr : PCFHeader) (params : List HandleParam)
    (handles : List QueueHandleDetails) : Prop where
  returned : parseQueueStatusResponse ((HandleResponse.flat params).encode hdr) = .ok handles
  named : handles.map QueueHandleDetails.queueName =
    if decodedQueueName params = [] then [] else [decodedQueueName params]

/-! ## One structure -/

/-- What becomes of the record when a parameter is visited. -/
def QueueHandleDetails.take (handle : QueueHandleDetails) : HandleParam → QueueHandleDetails
  | .integer id value => handle.withInteger id.toUInt32 value
  | .string id _ text _ => handle.withString id.toUInt32 (trimPadding text)
  | .other _ _ => handle

/-- The record behind parameters. -/
def handleOf (params : List HandleParam) : QueueHandleDetails :=
  params.foldl QueueHandleDetails.take {}

section Readers

variable {data post : Bytes} {off : Nat} {id : Int32}

/-- The length that the readers are given is that of what stands behind `StrucLength`. -/
theorem Words.toNat_paramDataLen {type : Int32} {body : Bytes}
    (w : Words data off type id body post) :
    (uint32At data (off + 4) - 8).toNat = 4 + body.length := by
  have hlength := w.length_word
  rw [toNat_sub_eight (by omega), hlength]
  omega

theorem parseIntegerParam_words {value : Int32}
    (w : Words data off mqcftInteger id (encodeInt32 value) post) (handle : QueueHandleDetails) :
    parseIntegerParam (data.drop (off + 8)) (uint32At data (off + 4) - 8).toNat handle =
      .ok (handle.withInteger id.toUInt32 value) := by
  have hfits := w.fits
  have hlen : (data.drop (off + 8)).length = data.length - (off + 8) := List.length_drop
  rw [length_encodeInt32] at hfits
  have hid : uint32At (data.drop (off + 8)) 0 = id.toUInt32 := by
    rw [uint32At_drop]
    exact w.id_word
  have hvalue : int32At (data.drop (off + 8)) 4 = value := by
    rw [int32At_drop]
    exact int32At_peel w.body_at
  unfold parseIntegerParam
  rw [w.toNat_paramDataLen, length_encodeInt32, if_neg (by omega), readUInt32_eq (by omega),
    readInt32_eq (by omega), hid, hvalue]
  rfl

theorem parseStringParam_words {ccsid : Int32} {text fill : Bytes}
    (w : Words data off mqcftString id (encodeInt32 ccsid ++
      (encodeInt32 (Int32.ofNat text.length) ++ (text ++ fill))) post)
    (handle : QueueHandleDetails) :
    parseStringParam (data.drop (off + 8)) (uint32At data (off + 4) - 8).toNat handle =
      .ok (handle.withString id.toUInt32 (trimPadding text)) := by
  have hfits := w.fits
  have hshort := w.short
  have hlen : (data.drop (off + 8)).length = data.length - (off + 8) := List.length_drop
  have hbody := w.body_at
  simp only [List.length_append, length_encodeInt32] at hfits hshort
  simp only [List.append_assoc] at hbody
  have h16 := drop_peel_int32 hbody
  have h20 := drop_peel_int32 h16
  have hid : uint32At (data.drop (off + 8)) 0 = id.toUInt32 := by
    rw [uint32At_drop]
    exact w.id_word
  have hword : (uint32At (data.drop (off + 8)) 8).toNat = text.length := by
    rw [uint32At_drop, uint32At_peel h16]
    exact toNat_toUInt32_ofNat (by omega)
  have hsum : (12 + uint32At (data.drop (off + 8)) 8).toNat = 12 + text.length := by
    rw [(toNat_add_twelve _).mpr (by omega), hword]
  have htext : ((data.drop (off + 8)).drop 12).take text.length = text := by
    rw [List.drop_drop, h20, List.take_left]
  unfold parseStringParam
  rw [w.toNat_paramDataLen]
  simp only [List.length_append, length_encodeInt32]
  rw [if_neg (by omega), readUInt32_eq (by omega), readUInt32_eq (by omega), Outcome.ok_bind,
    Outcome.ok_bind, hsum, if_neg (by omega), hword, slice_eq_ok (by omega), htext, hid]
  rfl

end Readers

/-- What becomes of the variables of the loop when an item is visited. -/
def HandleScan.take (scan : HandleScan) : HandleItem → HandleScan
  | .group _ _ => scan.openGroup
  | .param p => { scan with current := scan.current.take p }

/-- The loop visits an item. -/
theorem HandleScan.visitAt_item {data post : Bytes} {off : Nat} {item : HandleItem}
    (w : Words data off item.structure.type item.structure.id item.structure.body post)
    (scan : HandleScan) : scan.visitAt data off = .ok (scan.take item) := by
  unfold HandleScan.visitAt HandleScan.visit
  dsimp only
  cases item with
  | group id count =>
      have htype : uint32At data off = mqcftGroup.toUInt32 := w.type_word
      rw [htype, if_pos (by decide)]
      rfl
  | param p =>
      cases p with
      | integer id value =>
          have htype : uint32At data off = mqcftInteger.toUInt32 := w.type_word
          rw [htype, if_neg (by decide), if_neg (by decide), if_pos (by decide),
            parseIntegerParam_words w]
          rfl
      | string id ccsid text fill =>
          have htype : uint32At data off = mqcftString.toUInt32 := w.type_word
          rw [htype, if_neg (by decide), if_pos (by decide), parseStringParam_words w]
          rfl
      | other s h =>
          have htype : uint32At data off = s.type.toUInt32 := w.type_word
          obtain ⟨hinteger, hstring, hgroup⟩ := h
          have h20 : s.type.toUInt32 ≠ mqcftGroup.toUInt32 := mt toUInt32_inj.mp hgroup
          have h4 : s.type.toUInt32 ≠ mqcftString.toUInt32 := mt toUInt32_inj.mp hstring
          have h3 : s.type.toUInt32 ≠ mqcftInteger.toUInt32 := mt toUInt32_inj.mp hinteger
          rw [htype]
          exact (if_neg h20).trans ((if_neg h4).trans (if_neg h3))

/-- The function on a response, as a loop over its items. -/
theorem HandleResponse.parse_encode {hdr : PCFHeader} (hcode : hdr.compCode = 0)
    (resp : HandleResponse) (hlen : (resp.encode hdr).length < 2 ^ 31) :
    parseQueueStatusResponse (resp.encode hdr) =
      .ok (resp.items.foldl HandleScan.take {}).finish := by
  have hwalk : List.Forall₂ (fun off item =>
      Framing.RecordAt PcfStructure.encode (resp.encode hdr) off (HandleItem.structure item))
      (responseFraming.offsets (resp.encode hdr) 36) resp.items :=
    List.forall₂_map_right_iff.mp (offsets_response hlen)
  have hoffsets : queueStatusOffsets (resp.encode hdr) =
      responseFraming.offsets (resp.encode hdr) 36 := if_pos (response_accepted hcode)
  rw [parseQueueStatusResponse_eq, hoffsets, foldlM_eq_ok hwalk]
  · rfl
  · intro scan off item hrecord hitem
    have hfits := length_encode_of_mem (List.mem_map_of_mem hitem) hlen
    obtain ⟨post, w⟩ := words_of_recordAt hrecord hfits
    exact scan.visitAt_item w

/-! ## One record for all handles -/

/-- What a record adds to the result when it is put away. -/
def QueueHandleDetails.entry (handle : QueueHandleDetails) : List QueueHandleDetails :=
  if handle.queueName ≠ [] then [handle] else []

theorem HandleScan.finish_eq (scan : HandleScan) :
    scan.finish = scan.handles ++ scan.current.entry := by
  unfold HandleScan.finish QueueHandleDetails.entry
  split
  · rfl
  · rw [List.append_nil]

/-- In a group, opening the next one puts away what the end would. -/
theorem HandleScan.openGroup_handles {scan : HandleScan}
    (h : scan.inGroup = true ∨ scan.current.queueName = []) :
    scan.openGroup.handles = scan.finish := by
  unfold HandleScan.openGroup HandleScan.finish
  rcases h with hgroup | hname
  · simp [hgroup]
  · simp [hname]

/-- Parameters change the record and nothing else. -/
theorem HandleScan.foldl_params (params : List HandleParam) (scan : HandleScan) :
    (params.map HandleItem.param).foldl HandleScan.take scan =
      { scan with current := params.foldl QueueHandleDetails.take scan.current } := by
  induction params generalizing scan with
  | nil => rfl
  | cons p params ih =>
      rw [List.map_cons, List.foldl_cons, ih]
      rfl

theorem Segment.foldl_items (seg : Segment) (scan : HandleScan) :
    seg.items.foldl HandleScan.take scan =
      { scan.openGroup with current := handleOf seg.params } := by
  rw [Segment.items, List.foldl_cons, HandleScan.foldl_params]
  rfl

/-- Segments add their records, each once and in order, behind what is there. -/
theorem HandleScan.finish_segments (segs : List Segment) {scan : HandleScan}
    (h : scan.inGroup = true ∨ scan.current.queueName = []) :
    ((segs.flatMap Segment.items).foldl HandleScan.take scan).finish =
      scan.finish ++ segs.flatMap fun seg => (handleOf seg.params).entry := by
  induction segs generalizing scan with
  | nil => exact (List.append_nil _).symm
  | cons seg segs ih =>
      have hflush : (seg.items.foldl HandleScan.take scan).finish =
          scan.finish ++ (handleOf seg.params).entry := by
        rw [seg.foldl_items, HandleScan.finish_eq, ← HandleScan.openGroup_handles h]
      have hgroup : (seg.items.foldl HandleScan.take scan).inGroup = true := by
        rw [seg.foldl_items]
        rfl
      rw [List.flatMap_cons, List.foldl_append, ih (.inl hgroup), hflush, List.flatMap_cons,
        List.append_assoc]

theorem queueName_withInteger (handle : QueueHandleDetails) (paramId : UInt32) (value : Int32) :
    (handle.withInteger paramId value).queueName = handle.queueName := by
  unfold QueueHandleDetails.withInteger
  repeat' split
  all_goals rfl

theorem queueName_withString (handle : QueueHandleDetails) (paramId : UInt32) (val : Bytes) :
    (handle.withString paramId val).queueName =
      if paramId = 2016 then val else handle.queueName := by
  unfold QueueHandleDetails.withString
  repeat' split
  all_goals rfl

/-- The record has the queue name that is decoded from the parameters. -/
theorem queueName_handleOf (params : List HandleParam) :
    (handleOf params).queueName = decodedQueueName params := by
  refine foldl_field QueueHandleDetails.queueName (fun handle p _ => ?_) {}
  cases p with
  | integer id value => exact queueName_withInteger handle id.toUInt32 value
  | string id ccsid text fill =>
      have hid : id.toUInt32 = 2016 ↔ id = 2016 := toUInt32_inj (b := 2016)
      rw [QueueHandleDetails.take, queueName_withString, HandleParam.queueName]
      by_cases h : id = 2016
      · rw [if_pos (hid.mpr h), if_pos h, Option.getD_some]
      · rw [if_neg fun hcon => h (hid.mp hcon), if_neg h, Option.getD_none]
  | other s h => rfl

theorem map_queueName_entry (params : List HandleParam) :
    (handleOf params).entry.map QueueHandleDetails.queueName =
      if decodedQueueName params = [] then [] else [decodedQueueName params] := by
  rw [QueueHandleDetails.entry, queueName_handleOf, ite_not]
  split
  · rfl
  · rw [List.map_singleton, queueName_handleOf]

/-- What parameters that stand alone come to. -/
theorem reports_entry {hdr : PCFHeader} (hcode : hdr.compCode = 0) {params : List HandleParam}
    (hlen : ((HandleResponse.flat params).encode hdr).length < 2 ^ 31) :
    Reports hdr params (handleOf params).entry where
  returned := by
    rw [HandleResponse.parse_encode hcode _ hlen, HandleResponse.items, HandleScan.foldl_params,
      HandleScan.finish_eq]
    rfl
  named := map_queueName_entry params

/-- The function on a response, segment by segment. -/
theorem HandleResponse.parse_segments {hdr : PCFHeader} (hcode : hdr.compCode = 0)
    (resp : HandleResponse) (hlen : (resp.encode hdr).length < 2 ^ 31) :
    parseQueueStatusResponse (resp.encode hdr) =
      .ok (resp.segments.map fun params => (handleOf params).entry).flatten := by
  cases resp with
  | flat params =>
      rw [(reports_entry hcode hlen).returned]
      simp [segments]
  | grouped segs =>
      rw [parse_encode hcode _ hlen, items, HandleScan.finish_segments segs (.inr rfl), segments,
        List.map_map]
      rfl

/-- A response is as long as the response of one of its segments. -/
theorem HandleResponse.length_segment_le {hdr : PCFHeader} {resp : HandleResponse}
    {params : List HandleParam} (h : params ∈ resp.segments) :
    ((HandleResponse.flat params).encode hdr).length ≤ (resp.encode hdr).length := by
  cases resp with
  | flat _ => rw [List.mem_singleton.mp h]
  | grouped segs =>
      obtain ⟨seg, hseg, rfl⟩ := List.mem_map.mp h
      obtain ⟨before, after, rfl⟩ := List.append_of_mem hseg
      simp only [encode, encodeResponse, items, Segment.items, List.flatMap_append,
        List.flatMap_cons, List.map_append, List.map_cons, List.length_append]
      omega

/-- The handles of a response are those of its segments, in order: one for each segment
that names a queue, the same as without the other segments. -/
theorem handles_segmented {hdr : PCFHeader} (hcode : hdr.compCode = 0) (resp : HandleResponse)
    (hlen : (resp.encode hdr).length < 2 ^ 31) :
    ∃ handles, List.Forall₂ (Reports hdr) resp.segments handles ∧
      parseQueueStatusResponse (resp.encode hdr) = .ok handles.flatten := by
  refine ⟨resp.segments.map fun params => (handleOf params).entry, ?_,
    resp.parse_segments hcode hlen⟩
  rw [List.forall₂_map_right_iff, List.forall₂_same]
  intro params hparams
  exact reports_entry hcode (Nat.lt_of_le_of_lt (HandleResponse.length_segment_le hparams) hlen)

/-- Two groups that name a queue, with a group between them that does not. -/
def twoNamed : HandleResponse :=
  .grouped
    [{ groupId := 8001, count := 2,
       params := [.string 2016 0 [81, 49] [32, 32], .integer 3002 7] },
     { groupId := 8001, count := 1, params := [.integer 1411 1] },
     { groupId := 8001, count := 1, params := [.string 2016 0 [81, 50] [32, 32]] }]

theorem handles_segmented_twoNamed :
    ∃ handles, List.Forall₂ (Reports (responseHeader 41 6)) twoNamed.segments handles ∧
      parseQueueStatusResponse (twoNamed.encode (responseHeader 41 6)) = .ok handles.flatten :=
  handles_segmented rfl twoNamed (by decide +kernel)

end IbmmqExporter.Pcf
