/-
  Pcf/InquiryRoundTrip.lean --- the command builders against the two decoders.

  Every builder writes a header and then, one after the other, the encodings of the
  parameters it was given.  What is proved of one such buffer is therefore proved
  once, for any list of numbers and texts behind a header.
-/
import IbmmqExporter.Pcf.Structures
import Mathlib.Data.List.Forall2

set_option autoImplicit false

namespace IbmmqExporter.Pcf

open Foundation

/-! ## What the builders append -/

theorem patch_middle (pre old post new : Bytes) (h : new.length = old.length) :
    patch (pre ++ (old ++ post)) pre.length new = pre ++ (new ++ post) := by
  unfold patch
  rw [List.take_left, h, ← List.drop_drop, List.drop_left, List.drop_left]

theorem length_buildPcfCmd (command paramCount : Int32) :
    (buildPcfCmd command paramCount).length = 36 := by
  simp [buildPcfCmd, appendInt32]

theorem appendIntegerParam_eq (buf : Bytes) (paramId value : Int32) :
    appendIntegerParam buf paramId value = buf ++ (Scalar.integer paramId value).encode := by
  simp only [appendIntegerParam, appendInt32, Scalar.encode, encodeStructure, encodeHeader,
    length_encodeInt32, List.append_assoc]
  rfl

/-- The padding of `append_string_param` is the filling up to a multiple of four. -/
theorem padding_eq {n : Nat} (h : n < 2 ^ 31) :
    List.replicate ((4 - (Int32.ofNat n).toInt.tmod 4).tmod 4).toNat (0 : UInt8) =
      filling n := by
  have hmod : ((4 - (Int32.ofNat n).toInt.tmod 4).tmod 4).toNat = (4 - n % 4) % 4 := by
    rw [Int32.toInt_ofNat_of_lt h]
    have hn : (n : Int).tmod 4 = (n % 4 : Nat) := rfl
    have hlt := Nat.mod_lt n (show 0 < 4 by omega)
    rw [hn, Int.tmod_eq_emod_of_nonneg (by omega)]
    omega
  rw [hmod, filling]

theorem appendStringParam_eq (buf : Bytes) (paramId : Int32) (t : Text)
    (h : t.bytes.length < 2 ^ 31) :
    appendStringParam buf paramId t.bytes =
      buf ++ (Scalar.string paramId 0 t).encode := by
  have hsplit : appendStringParam buf paramId t.bytes =
      patch ((buf ++ encodeInt32 4) ++ (encodeInt32 0 ++ (encodeInt32 paramId ++
        (encodeInt32 0 ++ (encodeInt32 (Int32.ofNat t.bytes.length) ++
          (t.bytes ++ filling t.bytes.length))))))
        (buf ++ encodeInt32 4).length
        (encodeInt32 (Int32.ofNat (20 + t.bytes.length + (filling t.bytes.length).length))) := by
    simp only [appendStringParam, appendInt32, padding_eq h, List.append_assoc,
      List.length_append, length_encodeInt32]
    congr 3
    omega
  have hlength : 20 + t.bytes.length + (filling t.bytes.length).length =
      12 + (4 + (4 + (t.bytes.length + (filling t.bytes.length).length))) := by omega
  rw [hsplit, patch_middle _ _ _ _ (by simp), hlength]
  simp only [Scalar.encode, encodeStructure, encodeHeader, List.length_append,
    length_encodeInt32, List.append_assoc]
  rfl

/-! ## Commands -/

/-- A command, with the arguments of its builder. -/
inductive Command where
  | inquireQ (queueName : Text)
  | inquireQStatus (queueName : Text)
  | inquireChannelStatus (channelPattern : Text)
  | inquireTopicStatus (topicPattern : Text)
  | inquireSubStatus (subPattern : Text)
  | inquireQmgrStatus
  | inquireClusterQmgr
  | inquireUsage (usageType : Int32)
  | inquireQStatusOnline (queueName : Text)
  | resetQStats (queueName : Text)

namespace Command

/-- The buffer that the command's builder returns. -/
def build : Command → Bytes
  | inquireQ queueName => buildInquireQCmd queueName.bytes
  | inquireQStatus queueName => buildInquireQStatusCmd queueName.bytes
  | inquireChannelStatus channelPattern =>
      buildInquireChannelStatusCmd channelPattern.bytes
  | inquireTopicStatus topicPattern => buildInquireTopicStatusCmd topicPattern.bytes
  | inquireSubStatus subPattern => buildInquireSubStatusCmd subPattern.bytes
  | inquireQmgrStatus => buildInquireQmgrStatusCmd
  | inquireClusterQmgr => buildInquireClusterQmgrCmd
  | inquireUsage usageType => buildInquireUsageCmd usageType
  | inquireQStatusOnline queueName => buildInquireQStatusOnlineCmd queueName.bytes
  | resetQStats queueName => buildResetQStatsCmd queueName.bytes

/-- The command code. -/
def code : Command → Int32
  | inquireQ _ => 13
  | inquireQStatus _ => 41
  | inquireChannelStatus _ => 42
  | inquireTopicStatus _ => 183
  | inquireSubStatus _ => 182
  | inquireQmgrStatus => 161
  | inquireClusterQmgr => 70
  | inquireUsage _ => 126
  | inquireQStatusOnline _ => 41
  | resetQStats _ => 17

/-- The parameter ids and values that the builder is given. -/
def params : Command → List Scalar
  | inquireQ queueName => [.string 2016 0 queueName, .integer 20 1]
  | inquireQStatus queueName => [.string 2016 0 queueName, .integer 1103 1104]
  | inquireChannelStatus channelPattern => [.string 3501 0 channelPattern]
  | inquireTopicStatus topicPattern => [.string 2094 0 topicPattern]
  | inquireSubStatus subPattern => [.string 3152 0 subPattern]
  | inquireQmgrStatus => []
  | inquireClusterQmgr => [.string 2029 0 asterisk]
  | inquireUsage usageType => [.integer 1157 usageType]
  | inquireQStatusOnline queueName => [.string 2016 0 queueName, .integer 1103 1105]
  | resetQStats queueName => [.string 2016 0 queueName]

/-- The text argument of the builder, if it takes one. -/
def text : Command → Option Text
  | inquireQ queueName => some queueName
  | inquireQStatus queueName => some queueName
  | inquireChannelStatus channelPattern => some channelPattern
  | inquireTopicStatus topicPattern => some topicPattern
  | inquireSubStatus subPattern => some subPattern
  | inquireQmgrStatus => none
  | inquireClusterQmgr => none
  | inquireUsage _ => none
  | inquireQStatusOnline queueName => some queueName
  | resetQStats queueName => some queueName

/-- The text argument is shorter than `2^31 - 64` bytes. -/
def Short (c : Command) : Prop := ∀ t ∈ c.text, t.bytes.length < 2 ^ 31 - 64

theorem Short.lt {c : Command} (h : c.Short) {t : Text} (ht : c.text = some t) :
    t.bytes.length < 2 ^ 31 :=
  Nat.lt_of_lt_of_le (h t ht) (by decide)

/-- Every builder writes its header and the encodings of its parameters. -/
theorem build_eq (c : Command) (h : c.Short) :
    c.build = buildPcfCmd c.code (Int32.ofNat c.params.length) ++
      c.params.flatMap Scalar.encode := by
  cases c with
  | inquireQ t =>
      simp [build, buildInquireQCmd, appendStringParam_eq _ _ t (h.lt rfl),
        appendIntegerParam_eq, code, params]
  | inquireQStatus t =>
      simp [build, buildInquireQStatusCmd, appendStringParam_eq _ _ t (h.lt rfl),
        appendIntegerParam_eq, code, params]
  | inquireChannelStatus t =>
      simp [build, buildInquireChannelStatusCmd, appendStringParam_eq _ _ t (h.lt rfl),
        code, params]
  | inquireTopicStatus t =>
      simp [build, buildInquireTopicStatusCmd, appendStringParam_eq _ _ t (h.lt rfl),
        code, params]
  | inquireSubStatus t =>
      simp [build, buildInquireSubStatusCmd, appendStringParam_eq _ _ t (h.lt rfl), code,
        params]
  | inquireQmgrStatus => simp [build, buildInquireQmgrStatusCmd, code, params]
  | inquireClusterQmgr =>
      have ht : asterisk.bytes.length < 2 ^ 31 := by decide
      simp [build, buildInquireClusterQmgrCmd, appendStringParam_eq _ _ _ ht, code, params]
  | inquireUsage usageType =>
      simp [build, buildInquireUsageCmd, appendIntegerParam_eq, code, params]
  | inquireQStatusOnline t =>
      simp [build, buildInquireQStatusOnlineCmd, appendStringParam_eq _ _ t (h.lt rfl),
        appendIntegerParam_eq, code, params]
  | resetQStats t =>
      simp [build, buildResetQStatsCmd, appendStringParam_eq _ _ t (h.lt rfl), code, params]

end Command

/-! ## Walking a list of numbers and texts -/

theorem length_scalar_mod (s : Scalar) : s.encode.length % 4 = 0 := by
  cases s with
  | integer id v => simp [Scalar.encode]
  | integer64 id v => simp [Scalar.encode]
  | string id ccsid t =>
      simp only [Scalar.encode, length_encodeStructure, List.length_append,
        length_encodeInt32, filling, List.length_replicate]
      omega

/-- The id of a structure. -/
def Scalar.id : Scalar → Int32
  | .integer id _ => id
  | .integer64 id _ => id
  | .string id _ _ => id

/-- The type of a structure. -/
def Scalar.type : Scalar → Int32
  | .integer _ _ => mqcftInteger
  | .integer64 _ _ => mqcftInteger64
  | .string _ _ _ => mqcftString

/-- The structure, as a response is walked over it. -/
def Scalar.structure : Scalar → PcfStructure
  | .integer id v => .integer id v
  | .integer64 id v => .integer64 id v.toInt64
  | .string id ccsid t => .string id ccsid t.bytes (filling t.bytes.length)

theorem Scalar.encode_structure (s : Scalar) : s.structure.encode = s.encode := by
  cases s <;> rfl

theorem Scalar.type_structure (s : Scalar) : s.structure.type = s.type := by cases s <;> rfl

theorem Scalar.id_structure (s : Scalar) : s.structure.id = s.id := by cases s <;> rfl

theorem response_next (s : Scalar) {post : Bytes} (hlen : s.encode.length < 2 ^ 31) :
    responseFraming.next (s.encode ++ post) = some s.encode.length := by
  rw [← s.encode_structure] at hlen ⊢
  exact responseFraming_encode hlen post

/-- The visitor is given the structure `s`. -/
structure Shows (p : ResponseParam) (s : Scalar) : Prop where
  type_eq : p.paramType = s.type.toUInt32
  id_eq : p.paramId = s.id.toUInt32
  pdata_eq : p.pdata = s.encode
  plen_eq : p.plen.toNat = s.encode.length

theorem Carries.shows {p : ResponseParam} {s : Scalar} (c : Carries p s.structure) :
    Shows p s where
  type_eq := by rw [c.type_eq, s.type_structure]
  id_eq := by rw [c.id_eq, s.id_structure]
  pdata_eq := by rw [c.pdata_eq, s.encode_structure]
  plen_eq := by rw [c.plen_eq, s.encode_structure]

theorem Shows.carries {p : ResponseParam} {s : Scalar} (h : Shows p s)
    (hlen : s.encode.length < 2 ^ 31) : Carries p s.structure where
  type_eq := by rw [h.type_eq, s.type_structure]
  id_eq := by rw [h.id_eq, s.id_structure]
  pdata_eq := by rw [h.pdata_eq, s.encode_structure]
  plen_eq := by rw [h.plen_eq, s.encode_structure]
  short := by rwa [s.encode_structure]

theorem shows_paramAt {data : Bytes} {off : Nat} {s : Scalar}
    (h : Framing.RecordAt Scalar.encode data off s) (hlen : s.encode.length < 2 ^ 31)
    (hnext : ∃ n, responseFraming.next (data.drop off) = some n) :
    Shows (paramAt data off hnext) s := by
  obtain ⟨post, h⟩ := h
  rw [← s.encode_structure] at h hlen
  exact (carries_paramAt ⟨post, h⟩ hlen hnext).shows

section Stream

variable {pre : Bytes} {ss : List Scalar}

/-- The walk behind a header visits exactly the structures, in order. -/
theorem visitedParams_stream (hss : ∀ s ∈ ss, s.encode.length < 2 ^ 31) :
    List.Forall₂ Shows
      (visitedParams (pre ++ ss.flatMap Scalar.encode) pre.length) ss := by
  refine forall₂_pmap
    (Framing.offsets_stream ss (fun s hs _ => response_next s (hss s hs)) pre) _ ?_
  intro off s hnext hs hrecord
  exact shows_paramAt hrecord (hss s hs) hnext

theorem stop_stream_response (hss : ∀ s ∈ ss, s.encode.length < 2 ^ 31) :
    responseFraming.stop (pre ++ ss.flatMap Scalar.encode) pre.length =
      (pre ++ ss.flatMap Scalar.encode).length :=
  Framing.stop_stream ss (fun s hs _ => response_next s (hss s hs)) pre

end Stream

/-! ## Reading the structures back -/

/-- A value that one of the readers returns. -/
inductive ReadValue where
  | number (v : Int32)
  | wide (v : Int64)
  | text (s : Bytes)
  deriving DecidableEq, Repr

/-- Read the value of a parameter with the reader for its type. -/
def readParam (p : ResponseParam) : Parse (UInt32 × ReadValue) := do
  if p.paramType = mqcftString.toUInt32 then
    let s ← readPcfString p.pdata p.plen
    return (p.paramId, .text s)
  else if p.paramType = mqcftInteger64.toUInt32 then
    let v ← readPcfInt64 p.pdata p.plen
    return (p.paramId, .wide v)
  else
    let v ← readPcfInt32 p.pdata p.plen
    return (p.paramId, .number v)

/-- The visitor that collects the ids and values. -/
def collect (acc : List (UInt32 × ReadValue)) (p : ResponseParam) :
    Parse (List (UInt32 × ReadValue)) := do
  let r ← readParam p
  return acc ++ [r]

/-- The id and value of a structure. -/
def Scalar.read : Scalar → UInt32 × ReadValue
  | .integer id v => (id.toUInt32, .number v)
  | .integer64 id v => (id.toUInt32, .wide v.toInt64)
  | .string id _ t => (id.toUInt32, .text t.bytes)

theorem readParam_shows {p : ResponseParam} {s : Scalar} (h : Shows p s)
    (hlen : s.encode.length < 2 ^ 31) : readParam p = .ok s.read := by
  have c := h.carries hlen
  cases s with
  | integer id v =>
      have htype : p.paramType = mqcftInteger.toUInt32 := h.type_eq
      have hid : p.paramId = id.toUInt32 := h.id_eq
      unfold readParam
      rw [htype, if_neg (by decide), if_neg (by decide), c.readPcfInt32_eq, hid]
      rfl
  | integer64 id v =>
      have htype : p.paramType = mqcftInteger64.toUInt32 := h.type_eq
      have hid : p.paramId = id.toUInt32 := h.id_eq
      unfold readParam
      rw [htype, if_neg (by decide), if_pos rfl, c.readPcfInt64_eq, hid]
      rfl
  | string id ccsid t =>
      have htype : p.paramType = mqcftString.toUInt32 := h.type_eq
      have hid : p.paramId = id.toUInt32 := h.id_eq
      have hfill : (t.bytes.length + (filling t.bytes.length).length) % 4 = 0 := by
        rw [filling, List.length_replicate]
        omega
      unfold readParam
      rw [htype, if_pos rfl, c.readPcfString_eq hfill, t.trimPadding_eq, hid]
      rfl

theorem foldlM_collect (ps : List ResponseParam) (acc : List (UInt32 × ReadValue)) :
    ps.foldlM collect acc = (fun rs => acc ++ rs) <$> ps.mapM readParam := by
  have hcollect : collect = fun acc p => (fun r => acc ++ [r]) <$> readParam p := by
    funext acc p
    rw [collect, map_eq_pure_bind]
  rw [hcollect]
  exact Outcome.foldlM_concat readParam ps acc

/-! ## Every command -/

/-- A command's buffer: a header that counts the structures behind it, all of a
length that is a multiple of four, up to the buffer's end; and both decoders give
back the parameters. -/
structure Command.Decodes (c : Command) : Prop where
  header : parseHeader c.build = .ok
    { type := 1, strucLength := 36, version := 1, command := c.code, msgSeqNumber := 1,
      control := 1, compCode := 0, reason := 0,
      parameterCount := Int32.ofNat (responseParams c.build).length }
  multiple : ∀ p ∈ responseParams c.build, p.plen.toNat % 4 = 0
  walk : responseLoop c.build collect 36 [] =
    .ok (c.params.map Scalar.read, c.build.length)
  readers : parsePcfResponseParams c.build collect [] = .ok (c.params.map Scalar.read)
  parser : parseParameters (c.build.drop 36) = .ok (c.params.map Scalar.param)

theorem parseHeader_buildPcfCmd (command count : Int32) (post : Bytes) :
    parseHeader (buildPcfCmd command count ++ post) = .ok
      { type := 1, strucLength := 36, version := 1, command := command,
        msgSeqNumber := 1, control := 1, compCode := 0, reason := 0,
        parameterCount := count } := by
  have hencode : buildPcfCmd command count = PCFHeader.encode
      { type := 1, strucLength := 36, version := 1, command := command,
        msgSeqNumber := 1, control := 1, compCode := 0, reason := 0,
        parameterCount := count } := by
    simp [buildPcfCmd, appendInt32, PCFHeader.encode]
  rw [hencode]
  exact parseHeader_encode _ post

theorem compCode_buildPcfCmd (command count : Int32) (post : Bytes) :
    uint32At (buildPcfCmd command count ++ post) 24 = 0 := by
  have h0 : (buildPcfCmd command count ++ post).drop 24 =
      encodeInt32 0 ++ (encodeInt32 0 ++ (encodeInt32 count ++ post)) := by
    have hpre : (encodeInt32 1 ++ encodeInt32 36 ++ encodeInt32 1 ++ encodeInt32 command ++
        encodeInt32 1 ++ encodeInt32 1).length = 24 := by simp
    have hsplit : buildPcfCmd command count ++ post =
        (encodeInt32 1 ++ encodeInt32 36 ++ encodeInt32 1 ++ encodeInt32 command ++
          encodeInt32 1 ++ encodeInt32 1) ++
          (encodeInt32 0 ++ (encodeInt32 0 ++ (encodeInt32 count ++ post))) := by
      simp only [buildPcfCmd, appendInt32, List.nil_append, List.append_assoc]
    rw [hsplit, List.drop_left' hpre]
  exact uint32At_peel h0

theorem Command.params_fit (c : Command) (h : c.Short) :
    ∀ s ∈ c.params, s.encode.length < 2 ^ 31 := by
  have hstring : ∀ (id : Int32) (t : Text), t.bytes.length < 2 ^ 31 - 64 →
      (Scalar.string id 0 t).encode.length < 2 ^ 31 := by
    intro id t ht
    simp only [Scalar.encode, length_encodeStructure, List.length_append,
      length_encodeInt32, filling, List.length_replicate]
    omega
  have hinteger : ∀ id v : Int32, (Scalar.integer id v).encode.length < 2 ^ 31 := by
    intro id v
    simp [Scalar.encode]
  cases c with
  | inquireQ t =>
      simpa [Command.params] using ⟨hstring 2016 t (h t rfl), hinteger 20 1⟩
  | inquireQStatus t =>
      simpa [Command.params] using ⟨hstring 2016 t (h t rfl), hinteger 1103 1104⟩
  | inquireChannelStatus t => simpa [Command.params] using hstring 3501 t (h t rfl)
  | inquireTopicStatus t => simpa [Command.params] using hstring 2094 t (h t rfl)
  | inquireSubStatus t => simpa [Command.params] using hstring 3152 t (h t rfl)
  | inquireQmgrStatus => simp [Command.params]
  | inquireClusterQmgr =>
      simpa [Command.params] using hstring 2029 asterisk (by decide)
  | inquireUsage usageType => simpa [Command.params] using hinteger 1157 usageType
  | inquireQStatusOnline t =>
      simpa [Command.params] using ⟨hstring 2016 t (h t rfl), hinteger 1103 1105⟩
  | resetQStats t => simpa [Command.params] using hstring 2016 t (h t rfl)

/-- The builders and the two decoders agree on every command. -/
theorem Command.decodes (c : Command) (h : c.Short) : c.Decodes := by
  have hfit := c.params_fit h
  have hbuild := c.build_eq h
  have hheader := length_buildPcfCmd c.code (Int32.ofNat c.params.length)
  have hparams : responseParams c.build = visitedParams c.build 36 := by
    unfold responseParams
    rw [if_pos]
    refine ⟨?_, ?_⟩
    · rw [hbuild, List.length_append]
      omega
    · rw [hbuild]
      exact compCode_buildPcfCmd _ _ _
  have hshows : List.Forall₂ Shows (visitedParams c.build 36) c.params := by
    rw [hbuild, ← hheader]
    exact visitedParams_stream hfit
  have hread : (visitedParams c.build 36).mapM readParam =
      .ok (c.params.map Scalar.read) :=
    mapM_eq_ok hshows fun p s hps hs => readParam_shows hps (hfit s hs)
  have hfold : (visitedParams c.build 36).foldlM collect [] =
      .ok (c.params.map Scalar.read) := by
    rw [foldlM_collect, hread]
    rfl
  refine ⟨?_, ?_, ?_, ?_, ?_⟩
  · rw [hparams, hshows.length_eq, hbuild, parseHeader_buildPcfCmd]
  · have hmultiple : ∀ p s, Shows p s → p.plen.toNat % 4 = 0 ∧ Shows p s := by
      intro p s hps
      rw [hps.plen_eq]
      exact ⟨length_scalar_mod s, hps⟩
    rw [hparams]
    exact ((List.forall₂_and_left _ _).mp (hshows.imp hmultiple)).1
  · rw [responseLoop_eq, hfold, Outcome.map_ok]
    congr 2
    rw [hbuild, ← hheader]
    exact stop_stream_response hfit
  · rw [parsePcfResponseParams_eq, hparams, hfold]
  · have hdrop : c.build.drop 36 = (c.params.map PcfTree.scalar).flatMap PcfTree.encode := by
      rw [hbuild, ← hheader, List.drop_left, List.flatMap_map]
      rfl
    rw [hdrop, parseParameters_trees, List.map_map]
    · rfl
    · intro t ht
      obtain ⟨s, hs, rfl⟩ := List.mem_map.mp ht
      exact hfit s hs

theorem Command.decodes_resetQStats :
    (Command.resetQStats ⟨[81, 49], by decide, by decide⟩).Decodes :=
  Command.decodes _ (by simp [Command.Short, Command.text])

end IbmmqExporter.Pcf
