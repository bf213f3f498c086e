/-
  Monitor/Integer64.lean --- a 64-bit integer in the three decoders.

  The same structure is read by `PCFParser::parse_parameters`, by `read_pcf_int64` and
  by `ResourceMonitor::parse_pcf_params`.  The first narrows the value to 32 bits.

  WHAT THE FILE PROVES.  The three agree on the value, and the bytes of a channel are
  what the queue manager sent, if and only if the value fits in 32 bits.
-/
import IbmmqExporter.Foundation.Accumulator
import IbmmqExporter.Monitor.Stream
import IbmmqExporter.Pcf.Inquiry

set_option autoImplicit false

namespace IbmmqExporter.Monitor

open Foundation Pcf

/-! ## The structure -/

/-- `MQCFIN64`. -/
structure Wide where
  id : Int32
  reserved : Int32
  value : Int64

namespace Wide

/-- The bytes of the structure. -/
def encode (w : Wide) : Bytes :=
  encodeStructure mqcftInteger64 w.id (encodeInt32 w.reserved ++ encodeInt64 w.value)

/-- What `parse_parameters` makes of it. -/
def param (w : Wide) : PCFParameter :=
  { parameter := w.id, type := mqcftInteger64, value := .int32 w.value.toInt32 }

@[simp] theorem length_encode (w : Wide) : w.encode.length = 24 := by
  simp [encode]

/-- Wherever the structure stands, its value stands sixteen bytes behind its start. -/
theorem value_at (w : Wide) {data post : Bytes} {off : Nat}
    (h : data.drop off = w.encode ++ post) :
    (readInt64 data (off + 16) : Parse Int64) = .ok w.value := by
  have words := words_of_drop h (by simp)
  have hbody := words.body_at
  rw [List.append_assoc] at hbody
  exact readInt64_peel (drop_peel_int32 hbody)

/-- The structure as a cell of the streams of the monitor. -/
def cell (w : Wide) : Cell where
  type := mqcftInteger64
  id := w.id
  body := encodeInt32 w.reserved ++ encodeInt64 w.value
  param := { type := mqcftInteger64, paramId := w.id, intValue := w.value.toInt32,
             int64Value := w.value }
  type_ne := by simp [mqcftInteger64, mqcftGroup]
  long := by simp
  short := by simp
  decodes {data post off} h := by
    have hvalue := w.value_at h
    rw [parseValue, if_neg (by simp [mqcftInteger64, mqcftInteger]),
      if_neg (by simp [mqcftInteger64, mqcftString]), if_pos rfl, if_pos (by simp), hvalue]
    rfl

end Wide

/-! ## `parse_parameters` -/

/-- A structure of a message: a tree or a 64-bit integer. -/
inductive Part where
  | tree (t : PcfTree)
  | wide (w : Wide)

/-- The bytes of the structure. -/
def Part.encode : Part → Bytes
  | .tree t => t.encode
  | .wide w => w.encode

/-- What `parse_parameters` makes of it. -/
def Part.param : Part → PCFParameter
  | .tree t => t.param
  | .wide w => w.param

/-- The `StrucLength` fits in its field. -/
def Part.Short (p : Part) : Prop := p.encode.length < 2 ^ 31

theorem parseAt_wide {data : Bytes} {off : Nat} {w : Wide}
    (h : Framing.RecordAt Wide.encode data off w) : parseAt data off = .ok w.param := by
  obtain ⟨post, h⟩ := h
  have words := words_of_drop h (by simp)
  have hvalue := w.value_at h
  rw [words.parseAt_eq (by simp [mqcftInteger64, mqcftGroup]), parseStructure,
    if_neg (by simp [mqcftInteger64, mqcftInteger]), if_pos rfl, if_pos (by simp),
    words.id_read]
  simp [hvalue, Wide.param]

/-- A concatenation of structures is decoded structure by structure. -/
theorem parseParameters_parts {parts : List Part} (hshort : ∀ p ∈ parts, p.Short) :
    parseParameters (parts.flatMap Part.encode) = .ok (parts.map Part.param) := by
  rw [parseParameters_eq_mapM]
  refine Framing.mapM_stream [] ?_ ?_
  · intro p hp post
    cases p with
    | tree t => exact next_encode t (hshort _ hp)
    | wide w => exact next_encodeStructure (by simp)
  · intro off p hat hp
    cases p with
    | tree t => exact parseAt_encode t _ off (hshort _ hp) hat
    | wide w => exact parseAt_wide hat

/-! ## Channel statistics -/

/-- Parameters with other ids leave the bytes of a channel as they are. -/
theorem foldl_channel_bytes {ps : List PCFParameter}
    (h : ∀ p ∈ ps, p.parameter ≠ mqiachBytes) (stats : ChannelStatistics) :
    (ps.foldl ChannelStatistics.withParam stats).bytes = stats.bytes := by
  induction ps generalizing stats with
  | nil => rfl
  | cons p ps ih =>
      have hp := h p List.mem_cons_self
      rw [List.foldl_cons, ih fun q hq => h q (List.mem_cons_of_mem p hq)]
      unfold ChannelStatistics.withParam
      split
      · split_ifs <;> rfl
      · split_ifs <;> rfl
      · rfl

/-- The bytes of a channel are the narrowed value. -/
theorem parseChannelStats_bytes {before after : List PCFParameter} (w : Wide)
    (hid : w.id = mqiachBytes) (hafter : ∀ p ∈ after, p.parameter ≠ mqiachBytes) :
    (parseChannelStats (before ++ w.param :: after)).bytes = w.value.toInt32.toInt64 := by
  unfold parseChannelStats
  rw [List.foldl_append, List.foldl_cons, foldl_channel_bytes hafter]
  simp [ChannelStatistics.withParam, Wide.param, hid, mqiachMsgs, mqiachBytes]

/-! ## The three decoders -/

/-- The number that a value holds. -/
def number {P : Type} : PCFValue P → Option ℤ
  | .int32 v => some v.toInt
  | .int64 v => some v.toInt
  | _ => none

/-- A 64-bit integer is decoded to its value by all three decoders, and as the bytes of
a channel. -/
structure FullWidth (v : Int64) : Prop where
  /-- by `parse_parameters`, among other structures -/
  parser (id reserved : Int32) (before after : List Part) :
    (∀ p ∈ before ++ after, p.Short) →
      ∃ p, parseParameters
          ((before ++ .wide ⟨id, reserved, v⟩ :: after).flatMap Part.encode) =
            .ok (before.map Part.param ++ p :: after.map Part.param) ∧
        p.parameter = id ∧ number p.value = some v.toInt
  /-- by `read_pcf_int64`, which is given the structure -/
  inquiry (id reserved : Int32) : readPcfInt64 (Wide.encode ⟨id, reserved, v⟩) 24 = .ok v
  /-- by `parse_pcf_params`, among other structures -/
  monitor (id reserved : Int32) (before after : List Entry) :
    ∃ p, parsePcfParams
        ((before ++ .leaf (Wide.cell ⟨id, reserved, v⟩) :: after).flatMap Entry.encode) =
          .ok (before.map Entry.param ++ p :: after.map Entry.param) ∧
      p.paramId = id ∧ p.int64Value = v
  /-- by `parse_message`, as the bytes in the statistics of a channel -/
  channel (hdr : PCFHeader) (reserved : Int32) (before after : List Part)
      (msgType : String) :
    hdr.command = cmdStatisticsChannel → (∀ p ∈ before ++ after, p.Short) →
      (∀ p ∈ before ++ after, p.param.parameter ≠ mqiachBytes) →
      ∃ stats, parseMessage (hdr.encode ++
          (before ++ .wide ⟨mqiachBytes, reserved, v⟩ :: after).flatMap Part.encode)
            msgType = .ok (some (.statistics stats)) ∧
        stats.channelStats.map (·.bytes) = some v

section Decoders

variable {v : Int64} {before after : List Part}

theorem parseParameters_wide (id reserved : Int32)
    (hshort : ∀ p ∈ before ++ after, p.Short) :
    parseParameters ((before ++ .wide ⟨id, reserved, v⟩ :: after).flatMap Part.encode) =
      .ok (before.map Part.param ++
        Wide.param ⟨id, reserved, v⟩ :: after.map Part.param) := by
  have hparts : ∀ p ∈ before ++ .wide ⟨id, reserved, v⟩ :: after, p.Short := by
    intro p hp
    rcases List.mem_append.mp hp with hp | hp
    · exact hshort p (List.mem_append_left _ hp)
    · rcases List.mem_cons.mp hp with rfl | hp
      · simp [Part.Short, Part.encode]
      · exact hshort p (List.mem_append_right _ hp)
  rw [parseParameters_parts hparts, List.map_append, List.map_cons]
  rfl

theorem readPcfInt64_wide (w : Wide) : readPcfInt64 w.encode 24 = .ok w.value := by
  have h : w.encode.drop 0 = w.encode ++ [] := (List.append_nil _).symm
  rw [readPcfInt64, if_neg (by simp)]
  exact w.value_at h

end Decoders

/-- The narrowed value is the value if and only if it fits. -/
theorem toInt64_toInt32_eq_iff (v : Int64) : v.toInt32.toInt64 = v ↔ InInt32 v.toInt := by
  rw [← Int64.toInt_inj, Int32.toInt_toInt64, toInt_toInt32_eq_iff]

theorem interpret_channel {hdr : PCFHeader} (h : hdr.command = cmdStatisticsChannel)
    (ps : List PCFParameter) (msgType : String) :
    interpret hdr ps msgType = .statistics (parseStatistics hdr ps) ∧
      (parseStatistics hdr ps).channelStats = some (parseChannelStats ps) := by
  refine ⟨?_, ?_⟩
  · unfold interpret
    rw [if_pos (.inr (.inl h))]
  · unfold parseStatistics
    rw [h, if_neg (by simp [cmdStatisticsChannel, cmdStatisticsQ]), if_pos rfl]

theorem FullWidth.inInt32 {v : Int64} (h : FullWidth v) : InInt32 v.toInt := by
  obtain ⟨p, hp, -, hnumber⟩ := h.parser 0 0 [] [] (by simp)
  have hwide := @parseParameters_wide v [] [] 0 0 (by simp)
  obtain ⟨rfl, -⟩ := List.cons.inj (Outcome.ok.inj (hp.symm.trans hwide))
  exact (toInt_toInt32_eq_iff v).mp (Option.some.inj hnumber)

theorem fullWidth_of_inInt32 {v : Int64} (hfits : InInt32 v.toInt) : FullWidth v := by
  refine ⟨?_, ?_, ?_, ?_⟩
  · intro id reserved before after hshort
    refine ⟨Wide.param ⟨id, reserved, v⟩, parseParameters_wide id reserved hshort, rfl, ?_⟩
    exact congrArg some ((toInt_toInt32_eq_iff v).mpr hfits)
  · intro id reserved
    exact readPcfInt64_wide ⟨id, reserved, v⟩
  · intro id reserved before after
    refine ⟨(Wide.cell ⟨id, reserved, v⟩).param, ?_, rfl, rfl⟩
    rw [parsePcfParams_entries, List.map_append, List.map_cons]
    rfl
  · intro hdr reserved before after msgType hcommand hshort hids
    have hparams := parseParameters_wide (v := v) mqiachBytes reserved hshort
    have hafter : ∀ p ∈ after.map Part.param, p.parameter ≠ mqiachBytes := by
      intro p hp
      obtain ⟨part, hpart, rfl⟩ := List.mem_map.mp hp
      exact hids part (List.mem_append_right _ hpart)
    have hbytes := @parseChannelStats_bytes (before.map Part.param) _
      ⟨mqiachBytes, reserved, v⟩ rfl hafter
    obtain ⟨hinterpret, hchannel⟩ := interpret_channel hcommand
      (before.map Part.param ++ Wide.param ⟨mqiachBytes, reserved, v⟩ :: after.map Part.param)
      msgType
    have hmessage := parseMessage_of_params hdr hparams msgType
    rw [hinterpret] at hmessage
    refine ⟨_, hmessage, ?_⟩
    rw [hchannel, Option.map_some, hbytes, (toInt64_toInt32_eq_iff v).mpr hfits]

/-- A 64-bit integer is decoded at full width everywhere if and only if it fits in 32
bits. -/
theorem fullWidth_iff (v : Int64) : FullWidth v ↔ InInt32 v.toInt :=
  ⟨FullWidth.inInt32, fullWidth_of_inInt32⟩

/-- The integer `2^31` becomes negative. -/
theorem not_fullWidth : ¬ ∀ v, FullWidth v := by
  intro h
  have hfits : InInt32 (Int64.toInt 2147483648) := (h _).inInt32
  exact absurd hfits (by decide)

end IbmmqExporter.Monitor
