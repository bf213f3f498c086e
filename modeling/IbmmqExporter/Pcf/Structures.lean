/-
  Pcf/Structures.lean --- PCF structures in a response, whatever they carry.

  `PcfTree` is the grammar that `PCFParser` decodes.  The parsers of the responses look
  at less of a structure: its type, its `StrucLength`, its id, and the bytes behind
  them, which each reader takes as it needs.

  WHAT THE FILE PROVIDES.  Behind a header the walk of a response visits the structures
  that were put there, with their words (`Words.type_word`, `Words.length_word`,
  `Words.id_word`).
-/
import IbmmqExporter.Pcf.InquirySafety
import IbmmqExporter.Pcf.RoundTrip

set_option autoImplicit false

namespace IbmmqExporter.Pcf

open Foundation

/-! ## Words -/

section Words

variable {data body post : Bytes} {off : Nat} {type id : Int32}

theorem toUInt32_inj {a b : Int32} : a.toUInt32 = b.toUInt32 ↔ a = b := by
  constructor
  · intro h
    rw [← a.toInt32_toUInt32, h, b.toInt32_toUInt32]
  · rintro rfl
    rfl

theorem toNat_toUInt32_ofNat {n : Nat} (h : n < 2 ^ 31) :
    (Int32.ofNat n).toUInt32.toNat = n :=
  UInt32.toNat_ofNat_of_lt' (Nat.lt_trans h (by decide))

theorem uint32At_of_int32At {v : Int32} (h : int32At data off = v) :
    uint32At data off = v.toUInt32 := by
  rw [← h, int32At, UInt32.toUInt32_toInt32]

theorem Words.type_word (w : Words data off type id body post) :
    uint32At data off = type.toUInt32 := uint32At_of_int32At w.type_eq

theorem Words.id_word (w : Words data off type id body post) :
    uint32At data (off + 8) = id.toUInt32 := uint32At_of_int32At w.id_eq

theorem Words.length_word (w : Words data off type id body post) :
    (uint32At data (off + 4)).toNat = 12 + body.length := by
  have hshort := w.short
  have hword := w.length_eq
  rcases intAt_uint32At data (off + 4) with ⟨-, h⟩ | ⟨-, h⟩ <;> omega

end Words

/-! ## Structures -/

/-- A structure, as its type, its id, and what follows these. -/
structure PcfStructure where
  type : Int32
  id : Int32
  body : Bytes
  deriving DecidableEq, Repr

namespace PcfStructure

/-- The bytes of the structure. -/
def encode (s : PcfStructure) : Bytes := encodeStructure s.type s.id s.body

@[simp] theorem length_encode (s : PcfStructure) : s.encode.length = 12 + s.body.length :=
  length_encodeStructure s.type s.id s.body

/-- `MQCFIN`. -/
def integer (id value : Int32) : PcfStructure := ⟨mqcftInteger, id, encodeInt32 value⟩

/-- `MQCFIN64`. -/
def integer64 (id : Int32) (value : Int64) : PcfStructure :=
  ⟨mqcftInteger64, id, encodeInt32 0 ++ encodeInt64 value⟩

/-- `MQCFIL`. -/
def integerList (id : Int32) (values : List Int32) : PcfStructure :=
  ⟨mqcftIntegerList, id, encodeInt32 (Int32.ofNat values.length) ++ values.flatMap encodeInt32⟩

/-- `MQCFST`, with the bytes behind the text up to `StrucLength`. -/
def string (id ccsid : Int32) (text fill : Bytes) : PcfStructure :=
  ⟨mqcftString, id, encodeInt32 ccsid ++ (encodeInt32 (Int32.ofNat text.length) ++
    (text ++ fill))⟩

/-- `MQCFSL`, with strings of `width` bytes and the bytes behind them. -/
def stringList (id ccsid : Int32) (width : Nat) (texts : List Bytes) (fill : Bytes) :
    PcfStructure :=
  ⟨mqcftStringList, id, encodeInt32 ccsid ++ (encodeInt32 (Int32.ofNat texts.length) ++
    (encodeInt32 (Int32.ofNat width) ++ (texts.flatten ++ fill)))⟩

/-- `MQCFGR`, the header of a group. -/
def group (id count : Int32) : PcfStructure := ⟨mqcftGroup, id, encodeInt32 count⟩

end PcfStructure

/-- Where a structure stands in a buffer, its words are found. -/
theorem words_of_recordAt {data : Bytes} {off : Nat} {s : PcfStructure}
    (h : Framing.RecordAt PcfStructure.encode data off s) (hlen : s.encode.length < 2 ^ 31) :
    ∃ post, Words data off s.type s.id s.body post := by
  obtain ⟨post, h⟩ := h
  exact ⟨post, words_of_drop h hlen⟩

/-- The walk of a response steps over a structure. -/
theorem responseFraming_encode {s : PcfStructure} (hlen : s.encode.length < 2 ^ 31)
    (post : Bytes) : responseFraming.next (s.encode ++ post) = some s.encode.length := by
  have w := words_of_drop (show (s.encode ++ post).drop 0 = s.encode ++ post from rfl) hlen
  have hfits := w.fits
  have hlength := s.length_encode
  have hnext : responseFraming.next ((s.encode ++ post).drop 0) = some s.encode.length :=
    responseFraming_next.mpr ⟨by omega, by omega, by omega, by rw [w.length_word, hlength]⟩
  exact hnext

/-! ## Responses -/

/-- A response that consists of a header and structures. -/
def encodeResponse (hdr : PCFHeader) (ss : List PcfStructure) : Bytes :=
  hdr.encode ++ ss.flatMap PcfStructure.encode

/-- The header of a successful response. -/
def responseHeader (command parameterCount : Int32) : PCFHeader where
  type := 2
  strucLength := 36
  version := 1
  command := command
  msgSeqNumber := 1
  control := 1
  compCode := 0
  reason := 0
  parameterCount := parameterCount

theorem compCode_encode (hdr : PCFHeader) (post : Bytes) :
    uint32At (hdr.encode ++ post) 24 = hdr.compCode.toUInt32 := by
  have h : (hdr.encode ++ post).drop 0 = hdr.encode ++ post := rfl
  simp only [PCFHeader.encode, List.append_assoc] at h
  have h24 := drop_peel_int32 (drop_peel_int32 (drop_peel_int32 (drop_peel_int32
    (drop_peel_int32 (drop_peel_int32 h)))))
  exact uint32At_peel h24

section Response

variable {hdr : PCFHeader} {ss : List PcfStructure}

/-- The response is successful, and longer than its header. -/
theorem response_accepted (hcode : hdr.compCode = 0) :
    36 ≤ (encodeResponse hdr ss).length ∧ uint32At (encodeResponse hdr ss) 24 = 0 := by
  refine ⟨?_, ?_⟩
  · rw [encodeResponse, List.length_append, hdr.length_encode]
    omega
  · rw [encodeResponse, compCode_encode, hcode]
    rfl

theorem length_encode_of_mem {s : PcfStructure} (hs : s ∈ ss)
    (hlen : (encodeResponse hdr ss).length < 2 ^ 31) : s.encode.length < 2 ^ 31 := by
  have hle : s.encode.length ≤ (ss.flatMap PcfStructure.encode).length :=
    Framing.length_le_flatMap _ hs
  rw [encodeResponse, List.length_append] at hlen
  omega

/-- The walk of a response visits the structures that were put there. -/
theorem offsets_structures (hlen : ∀ s ∈ ss, s.encode.length < 2 ^ 31) :
    List.Forall₂ (Framing.RecordAt PcfStructure.encode (encodeResponse hdr ss))
      (responseFraming.offsets (encodeResponse hdr ss) 36) ss := by
  rw [← hdr.length_encode]
  exact Framing.offsets_stream ss (fun s hs post => responseFraming_encode (hlen s hs) post)
    hdr.encode

theorem offsets_response (hlen : (encodeResponse hdr ss).length < 2 ^ 31) :
    List.Forall₂ (Framing.RecordAt PcfStructure.encode (encodeResponse hdr ss))
      (responseFraming.offsets (encodeResponse hdr ss) 36) ss :=
  offsets_structures fun _ hs => length_encode_of_mem hs hlen

end Response

/-! ## Parameters -/

/-- The visitor is given the structure `s`. -/
structure Carries (p : ResponseParam) (s : PcfStructure) : Prop where
  type_eq : p.paramType = s.type.toUInt32
  id_eq : p.paramId = s.id.toUInt32
  pdata_eq : p.pdata = s.encode
  plen_eq : p.plen.toNat = s.encode.length
  short : s.encode.length < 2 ^ 31

theorem carries_paramAt {data : Bytes} {off : Nat} {s : PcfStructure}
    (h : Framing.RecordAt PcfStructure.encode data off s) (hlen : s.encode.length < 2 ^ 31)
    (hnext : ∃ n, responseFraming.next (data.drop off) = some n) :
    Carries (paramAt data off hnext) s := by
  obtain ⟨post, h⟩ := h
  have w := words_of_drop h hlen
  have hfits := w.fits
  refine ⟨w.type_word, ?_, ?_, ?_, hlen⟩
  · simp only [paramAt]
    rw [if_pos (by omega), w.id_word]
  · simp only [paramAt]
    rw [w.length_word, h, ← s.length_encode, List.take_left]
  · rw [s.length_encode]
    exact w.length_word

/-- The parameters of a response are the structures that were put there. -/
theorem responseParams_response {hdr : PCFHeader} {ss : List PcfStructure}
    (hcode : hdr.compCode = 0) (hlen : (encodeResponse hdr ss).length < 2 ^ 31) :
    List.Forall₂ Carries (responseParams (encodeResponse hdr ss)) ss := by
  rw [responseParams, if_pos (response_accepted hcode)]
  refine forall₂_pmap (offsets_response hlen) _ ?_
  intro off s hnext hs hrecord
  exact carries_paramAt hrecord (length_encode_of_mem hs hlen) hnext

namespace Carries

variable {p : ResponseParam}

theorem words {s : PcfStructure} (c : Carries p s) : Words p.pdata 0 s.type s.id s.body [] := by
  have h : p.pdata.drop 0 = s.encode ++ [] := by simp [c.pdata_eq]
  exact words_of_drop h c.short

theorem plen_body {s : PcfStructure} (c : Carries p s) : p.plen.toNat = 12 + s.body.length := by
  rw [c.plen_eq, s.length_encode]

theorem readPcfInt32_eq {id value : Int32} (c : Carries p (.integer id value)) :
    readPcfInt32 p.pdata p.plen = .ok value := by
  have hplen : p.plen.toNat = 12 + (encodeInt32 value).length := c.plen_body
  have hshort : ¬ p.plen < 16 := by
    rw [UInt32.lt_iff_toNat_lt, hplen]
    simp
  have hvalue : (readInt32 p.pdata 12 : Parse Int32) = .ok value := readInt32_peel c.words.body_at
  rw [readPcfInt32, if_neg hshort, hvalue]

theorem readPcfInt64_eq {id : Int32} {value : Int64} (c : Carries p (.integer64 id value)) :
    readPcfInt64 p.pdata p.plen = .ok value := by
  have hplen : p.plen.toNat = 12 + (encodeInt32 0 ++ encodeInt64 value).length := c.plen_body
  have hshort : ¬ p.plen < 24 := by
    rw [UInt32.lt_iff_toNat_lt, hplen]
    simp
  have hbody : p.pdata.drop 12 = (encodeInt32 0 ++ encodeInt64 value) ++ [] := c.words.body_at
  rw [List.append_assoc] at hbody
  have hvalue : (readInt64 p.pdata 16 : Parse Int64) = .ok value :=
    readInt64_peel (drop_peel_int32 hbody)
  rw [readPcfInt64, if_neg hshort, hvalue]

/-- The string reader trims what `StringLength` states; shorter structures than it looks
at carry the empty string. -/
theorem readPcfString_eq {id ccsid : Int32} {text fill : Bytes}
    (c : Carries p (.string id ccsid text fill)) (hfill : (text.length + fill.length) % 4 = 0) :
    readPcfString p.pdata p.plen = .ok (trimPadding text) := by
  have hplen : p.plen.toNat = 12 + (encodeInt32 ccsid ++
      (encodeInt32 (Int32.ofNat text.length) ++ (text ++ fill))).length := c.plen_body
  have hbody : p.pdata.drop 12 = (encodeInt32 ccsid ++
      (encodeInt32 (Int32.ofNat text.length) ++ (text ++ fill))) ++ [] := c.words.body_at
  have hshort := c.short
  rw [← c.plen_eq, hplen] at hshort
  simp only [List.length_append, length_encodeInt32] at hplen hshort
  simp only [List.append_assoc] at hbody
  have h16 := drop_peel_int32 hbody
  have h20 : p.pdata.drop 20 = text ++ (fill ++ []) := drop_peel_int32 h16
  have hstated : statedStrLen p = text.length := by
    rw [statedStrLen, uint32At_peel h16]
    exact toNat_toUInt32_ofNat (by omega)
  have hbytes : pcfStringBytes p.pdata p.plen = .ok text := by
    by_cases h24 : 24 ≤ p.plen.toNat
    · rw [pcfStringBytes_eq h24 (by omega), hstated, Nat.min_eq_left (by omega), h20,
        List.take_left]
    · have hnil : text = [] := List.length_eq_zero_iff.mp (by omega)
      rw [pcfStringBytes_short (by omega), hnil]
  rw [readPcfString, hbytes, Outcome.map_ok]

/-- The loop of the list reader gives the words that stand in a row. -/
theorem readPcfInts_peel {pdata post : Bytes} (values : List Int32) {i : UInt32}
    (h : pdata.drop (16 + 4 * i.toNat) = values.flatMap encodeInt32 ++ post)
    (hlen : i.toNat + values.length < 2 ^ 30) :
    readPcfInts pdata values.length i = .ok values := by
  induction values generalizing i with
  | nil => rfl
  | cons v values ih =>
      rw [List.length_cons] at hlen
      have hmul : (i * 4).toNat = 4 * i.toNat := by
        simp only [UInt32.toNat_mul, UInt32.toNat_ofNat]
        omega
      have hnext : (i + 1).toNat = i.toNat + 1 := by
        rw [UInt32.toNat_add]
        have : (1 : UInt32).toNat = 1 := rfl
        omega
      rw [List.flatMap_cons, List.append_assoc] at h
      have hrest : pdata.drop (16 + 4 * (i + 1).toNat) = values.flatMap encodeInt32 ++ post := by
        rw [hnext, Nat.mul_succ, ← Nat.add_assoc]
        exact drop_peel_int32 h
      rw [List.length_cons, readPcfInts, hmul, readInt32_peel h, Outcome.ok_bind,
        ih hrest (by omega)]
      rfl

theorem readPcfIntList_eq {id : Int32} {values : List Int32}
    (c : Carries p (.integerList id values)) :
    readPcfIntList p.pdata p.plen = .ok values := by
  have hplen : p.plen.toNat =
      12 + (encodeInt32 (Int32.ofNat values.length) ++ values.flatMap encodeInt32).length :=
    c.plen_body
  have hbody : p.pdata.drop 12 =
      (encodeInt32 (Int32.ofNat values.length) ++ values.flatMap encodeInt32) ++ [] :=
    c.words.body_at
  have hvalues : (values.flatMap encodeInt32).length = 4 * values.length := by
    simp [List.length_flatMap, Nat.mul_comm]
  have hshort := c.short
  rw [← c.plen_eq, hplen] at hshort
  simp only [List.length_append, length_encodeInt32, hvalues] at hplen hshort
  rw [List.append_assoc] at hbody
  have hcount : statedCount p = values.length := by
    rw [statedCount, uint32At_peel hbody]
    exact toNat_toUInt32_ofNat (by omega)
  have htaken : takenCount p = values.length := by
    rw [takenCount, hcount, if_pos]
    omega
  rw [Pcf.readPcfIntList_eq (by omega), htaken]
  exact readPcfInts_peel values (drop_peel_int32 hbody) (by rw [UInt32.toNat_zero]; omega)

end Carries

end IbmmqExporter.Pcf
