/-
  Pcf/Inquiry.lean --- the PCF commands and the readers of their responses, of
  `pcf_inquiry.cpp`.

  The words are `uint32_t` and wrap around `2^32` where they do in the source.  A
  reader is given a pointer to a parameter and the parameter's length; its argument
  here is the parameter's bytes, so that a read behind them is undefined.
-/
import IbmmqExporter.Pcf.Encode

set_option autoImplicit false

namespace IbmmqExporter.Pcf

open Foundation

/-! ## Building commands -/

/-- `PCFInquiry::append_int32`. -/
def appendInt32 (buf : Bytes) (value : Int32) : Bytes := buf ++ encodeInt32 value

/-- `memcpy(&buf[pos], p, n)` for the `n` bytes `bs` at `p`. -/
def patch (buf : Bytes) (pos : Nat) (bs : Bytes) : Bytes :=
  buf.take pos ++ (bs ++ buf.drop (pos + bs.length))

/-- `PCFInquiry::build_pcf_cmd`. -/
def buildPcfCmd (command paramCount : Int32) : Bytes :=
  let buf := appendInt32 [] 1
  let buf := appendInt32 buf 36
  let buf := appendInt32 buf 1
  let buf := appendInt32 buf command
  let buf := appendInt32 buf 1
  let buf := appendInt32 buf 1
  let buf := appendInt32 buf 0
  let buf := appendInt32 buf 0
  appendInt32 buf paramCount

/-- `PCFInquiry::append_string_param`. -/
def appendStringParam (buf : Bytes) (paramId : Int32) (value : Bytes) : Bytes :=
  let paramStart := buf.length
  let buf := appendInt32 buf 4
  let lenPos := buf.length
  let buf := appendInt32 buf 0
  let buf := appendInt32 buf paramId
  let buf := appendInt32 buf 0
  let strLen := Int32.ofNat value.length
  let buf := appendInt32 buf strLen
  let buf := buf ++ value
  let padding := (4 - strLen.toInt.tmod 4).tmod 4
  let buf := buf ++ List.replicate padding.toNat 0
  patch buf lenPos (encodeInt32 (Int32.ofNat (buf.length - paramStart)))

/-- `PCFInquiry::append_integer_param`. -/
def appendIntegerParam (buf : Bytes) (paramId value : Int32) : Bytes :=
  let buf := appendInt32 buf 3
  let buf := appendInt32 buf 16
  let buf := appendInt32 buf paramId
  appendInt32 buf value

/-- `PCFInquiry::build_inquire_q_cmd`. -/
def buildInquireQCmd (queueName : Bytes) : Bytes :=
  let buf := buildPcfCmd 13 2
  let buf := appendStringParam buf 2016 queueName
  appendIntegerParam buf 20 1

/-- `PCFInquiry::build_inquire_q_status_cmd`. -/
def buildInquireQStatusCmd (queueName : Bytes) : Bytes :=
  let buf := buildPcfCmd 41 2
  let buf := appendStringParam buf 2016 queueName
  appendIntegerParam buf 1103 1104

/-- `PCFInquiry::build_inquire_channel_status_cmd`. -/
def buildInquireChannelStatusCmd (channelPattern : Bytes) : Bytes :=
  let buf := buildPcfCmd 42 1
  appendStringParam buf 3501 channelPattern

/-- `PCFInquiry::build_inquire_topic_status_cmd`. -/
def buildInquireTopicStatusCmd (topicPattern : Bytes) : Bytes :=
  let buf := buildPcfCmd 183 1
  appendStringParam buf 2094 topicPattern

/-- `PCFInquiry::build_inquire_sub_status_cmd`. -/
def buildInquireSubStatusCmd (subPattern : Bytes) : Bytes :=
  let buf := buildPcfCmd 182 1
  appendStringParam buf 3152 subPattern

/-- `PCFInquiry::build_inquire_qmgr_status_cmd`. -/
def buildInquireQmgrStatusCmd : Bytes := buildPcfCmd 161 0

/-- The text `"*"`. -/
def asterisk : Text := ⟨[42], by decide, by decide⟩

/-- `PCFInquiry::build_inquire_cluster_qmgr_cmd`. -/
def buildInquireClusterQmgrCmd : Bytes :=
  let buf := buildPcfCmd 70 1
  appendStringParam buf 2029 asterisk.bytes

/-- `PCFInquiry::build_inquire_usage_cmd`. -/
def buildInquireUsageCmd (usageType : Int32) : Bytes :=
  let buf := buildPcfCmd 126 1
  appendIntegerParam buf 1157 usageType

/-- `PCFInquiry::build_inquire_q_status_online_cmd`. -/
def buildInquireQStatusOnlineCmd (queueName : Bytes) : Bytes :=
  let buf := buildPcfCmd 41 2
  let buf := appendStringParam buf 2016 queueName
  appendIntegerParam buf 1103 1105

/-- `PCFInquiry::build_reset_q_stats_cmd`. -/
def buildResetQStatsCmd (queueName : Bytes) : Bytes :=
  let buf := buildPcfCmd 17 1
  appendStringParam buf 2016 queueName

/-! ## Walking a response -/

/-- What the visitor of `parse_pcf_response_params` is given: the type, the id, the
parameter's bytes `[pdata, pdata + plen)`, and `plen`. -/
structure ResponseParam where
  paramType : UInt32
  paramId : UInt32
  pdata : Bytes
  plen : UInt32
  length_pdata : pdata.length = plen.toNat

/-- The loop of `parse_pcf_response_params`, from `offset` on.  It also gives the
offset at which it ends. -/
def responseLoop {σ : Type} (data : Bytes) (visitor : σ → ResponseParam → Parse σ)
    (offset : Nat) (s : σ) : Parse (σ × Nat) :=
  if _h : offset + 8 ≤ data.length then do
    let paramType ← readUInt32 data offset
    let paramLen ← readUInt32 data (offset + 4)
    if hn : paramLen.toNat = 0 ∨ data.length < offset + paramLen.toNat then
      return (s, offset)
    else
      let paramId ← (
        if offset + 12 ≤ data.length then readUInt32 data (offset + 8) else return 0)
      let s ← visitor s
        { paramType, paramId, pdata := (data.drop offset).take paramLen.toNat,
          plen := paramLen
          length_pdata := by
            simp only [List.length_take, List.length_drop]
            omega }
      responseLoop data visitor (offset + paramLen.toNat) s
  else return (s, offset)
termination_by data.length - offset
decreasing_by omega

/-- `parse_pcf_response_params`. -/
def parsePcfResponseParams {σ : Type} (data : Bytes)
    (visitor : σ → ResponseParam → Parse σ) (s : σ) : Parse σ := do
  if data.length < 36 then return s
  else
    let compCode ← readUInt32 data 24
    if compCode ≠ 0 then return s
    else
      let (s, _) ← responseLoop data visitor 36 s
      return s

/-! ## Reading a parameter -/

/-- The string that `read_pcf_string` constructs, before `trim_mq_string`. -/
def pcfStringBytes (pdata : Bytes) (plen : UInt32) : Parse Bytes := do
  if plen < 24 then return []
  else
    let strLen ← readUInt32 pdata 16
    let strLen := if plen < 20 + strLen then plen - 20 else strLen
    slice pdata 20 strLen.toNat

/-- `read_pcf_string`. -/
def readPcfString (pdata : Bytes) (plen : UInt32) : Parse Bytes :=
  trimPadding <$> pcfStringBytes pdata plen

/-- `read_pcf_int32`. -/
def readPcfInt32 (pdata : Bytes) (plen : UInt32) : Parse Int32 := do
  if plen < 16 then return 0 else readInt32 pdata 12

/-- `read_pcf_int64`. -/
def readPcfInt64 (pdata : Bytes) (plen : UInt32) : Parse Int64 := do
  if plen < 24 then return 0 else readInt64 pdata 16

/-- The loop of `read_pcf_int_list`, for `n` more elements from the `i`-th on. -/
def readPcfInts (pdata : Bytes) : Nat → UInt32 → Parse (List Int32)
  | 0, _ => return []
  | n + 1, i => do
      let v ← readInt32 pdata (16 + (i * 4).toNat)
      let values ← readPcfInts pdata n (i + 1)
      return v :: values

/-- `read_pcf_int_list`. -/
def readPcfIntList (pdata : Bytes) (plen : UInt32) : Parse (List Int32) := do
  if plen < 16 then return []
  else
    let count ← readUInt32 pdata 12
    let count := if plen < 16 + count * 4 then (plen - 16) / 4 else count
    readPcfInts pdata count.toNat 0

/-! ## The walk -/

/-- How `parse_pcf_response_params` finds the next parameter. -/
def responseFraming : Framing where
  header := 8
  claim rest := (uint32At rest 4).toNat
  least := 1
  least_pos := Nat.one_pos

theorem responseFraming_next {data : Bytes} {offset n : Nat} :
    responseFraming.next (data.drop offset) = some n ↔
      offset + 8 ≤ data.length ∧ 0 < n ∧ offset + n ≤ data.length ∧
        (uint32At data (offset + 4)).toNat = n := by
  rw [Framing.next_eq_some]
  simp only [responseFraming, uint32At_drop, List.length_drop]
  omega

theorem responseFraming_next_none {data : Bytes} {offset : Nat}
    (h : responseFraming.next (data.drop offset) = none) (h8 : offset + 8 ≤ data.length) :
    (uint32At data (offset + 4)).toNat = 0 ∨
      data.length < offset + (uint32At data (offset + 4)).toNat := by
  by_contra hcon
  have hsome : responseFraming.next (data.drop offset) =
      some (uint32At data (offset + 4)).toNat :=
    responseFraming_next.mpr ⟨h8, by omega, by omega, rfl⟩
  rw [h] at hsome
  cases hsome

/-- The parameter at an offset that the walk visits. -/
def paramAt (data : Bytes) (offset : Nat)
    (h : ∃ n, responseFraming.next (data.drop offset) = some n) : ResponseParam where
  paramType := uint32At data offset
  paramId := if offset + 12 ≤ data.length then uint32At data (offset + 8) else 0
  pdata := (data.drop offset).take (uint32At data (offset + 4)).toNat
  plen := uint32At data (offset + 4)
  length_pdata := by
    obtain ⟨n, hn⟩ := h
    have := responseFraming_next.mp hn
    simp only [List.length_take, List.length_drop]
    omega

/-- The parameters that the walk visits, from `offset` on. -/
def visitedParams (data : Bytes) (offset : Nat) : List ResponseParam :=
  (responseFraming.offsets data offset).pmap (fun o h => paramAt data o h)
    fun _ ho => Framing.next_of_mem_offsets ho

/-- The loop runs the visitor over the visited parameters and ends where the walk
does. -/
theorem responseLoop_eq {σ : Type} (data : Bytes)
    (visitor : σ → ResponseParam → Parse σ) (offset : Nat) (s : σ) :
    responseLoop data visitor offset s =
      (fun s => (s, responseFraming.stop data offset)) <$>
        (visitedParams data offset).foldlM visitor s := by
  induction offset using responseFraming.walk_induction data generalizing s with
  | done offset h =>
      have hnone : visitedParams data offset = [] := by
        simp [visitedParams, Framing.offsets_of_none h]
      rw [hnone, Framing.stop_of_none h, responseLoop]
      split
      · rename_i h8
        have hstop := responseFraming_next_none h h8
        rw [readUInt32_eq (by omega), readUInt32_eq (by omega)]
        simp only [Outcome.ok_bind, dif_pos hstop]
        rfl
      · rfl
  | step offset n h ih =>
      obtain ⟨h8, hpos, hle, rfl⟩ := responseFraming_next.mp h
      have hcons : visitedParams data offset =
          paramAt data offset ⟨_, h⟩ ::
            visitedParams data (offset + (uint32At data (offset + 4)).toNat) := by
        simp [visitedParams, Framing.offsets_of_some h]
      have hgo : ¬ ((uint32At data (offset + 4)).toNat = 0 ∨
          data.length < offset + (uint32At data (offset + 4)).toNat) := by omega
      have hid : (if offset + 12 ≤ data.length then readUInt32 data (offset + 8)
          else return 0 : Parse UInt32) = .ok (paramAt data offset ⟨_, h⟩).paramId := by
        unfold paramAt
        split
        · exact readUInt32_eq (by omega)
        · rfl
      rw [hcons, Framing.stop_of_some h, List.foldlM_cons, responseLoop, dif_pos h8,
        readUInt32_eq (by omega), readUInt32_eq (by omega)]
      simp only [Outcome.ok_bind, dif_neg hgo, hid, map_bind]
      congr 1
      funext s
      exact ih s

/-- The parameters that `parse_pcf_response_params` visits in a response. -/
def responseParams (data : Bytes) : List ResponseParam :=
  if 36 ≤ data.length ∧ uint32At data 24 = 0 then visitedParams data 36 else []

/-- `parse_pcf_response_params` runs the visitor over the visited parameters. -/
theorem parsePcfResponseParams_eq {σ : Type} (data : Bytes)
    (visitor : σ → ResponseParam → Parse σ) (s : σ) :
    parsePcfResponseParams data visitor s = (responseParams data).foldlM visitor s := by
  unfold parsePcfResponseParams responseParams
  by_cases h36 : 36 ≤ data.length
  · rw [if_neg (by omega), readUInt32_eq (by omega), responseLoop_eq, Outcome.ok_bind]
    by_cases hcode : uint32At data 24 = 0
    · rw [if_neg (by simpa using hcode), if_pos ⟨h36, hcode⟩]
      cases (visitedParams data 36).foldlM visitor s <;> rfl
    · rw [if_pos hcode, if_neg fun h => hcode h.2]
      rfl
  · rw [if_pos (by omega), if_neg fun h => h36 h.1]
    rfl

end IbmmqExporter.Pcf
